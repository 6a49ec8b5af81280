import Switchboard.Proofs.Delivery
import Switchboard.Trial.Component

/-!
# Phases whose hooks meddle

A hook may move the very component whose phase it belongs to, and run phases on it in
turn. `Meddles c` is what such a hook may do to the board, and whole phases are among
it, so that hooks may nest (`meddling_runPhase`); the scripts of a component tried on
its own are such hooks (`meddling_scriptHook`). Where the listeners only listen,
`Roams c` is what is left of it: legal moves of that component, each heard once.
`Comes` is how a phase ends, whatever its hooks did in between.
-/

namespace Switchboard.Lifecycle

open Activity

namespace Board

/-- What a hook may do to a component, and to the record: nothing else on the board is touched. -/
inductive Meddles (c : ComponentId) : Board → Board → Prop where
  | refl (b : Board) : Meddles c b b
  | trans {b t u : Board} : Meddles c b t → Meddles c t u → Meddles c b u
  | request (b : Board) (target : State) : Meddles c b (b.request c target).1
  | fail (b : Board) : Meddles c b (b.fail c)
  | remark (b : Board) (e : Entry) : e.isCommit = false → e.isDelivery = false → Meddles c b (b.log e)
  | exhaust (b : Board) : Meddles c b { b with exhausted := true }

/-- Unless it was cut short, nothing was before, and the component has made legal moves, which its
listeners have heard of. -/
def Roams (c : ComponentId) (b t : Board) : Prop :=
  t.exhausted = false → b.exhausted = false ∧ (b.Placid [c] →
    ∃ moves, Linked (b.state c) moves (t.state c) ∧ b.Follows t (along [c] (moves.map (·.2))))

variable {b t u : Board} {c : ComponentId} {target : State}

theorem follows_remark {e : Entry} (b : Board) (he : e.isDelivery = false) :
    b.Follows (b.log e) fun _ => [] := by
  refine ⟨fun d => ⟨?_, fun i => ?_⟩, rfl⟩
  · exact (Walked.refl b d).manager
  · rw [itinerary, ite_self, List.append_nil, heard, log, List.reverse_cons, List.filterMap_append]
    cases e with
    | delivered => cases he
    | committed => exact List.append_nil _
    | hooked => exact List.append_nil _
    | tried => exact List.append_nil _

theorem Roams.refl (b : Board) : Roams c b b := fun hx =>
  ⟨hx, fun _ => ⟨[], rfl, (Follows.refl b).congr fun _ => (ite_self _).symm⟩⟩

theorem Roams.placid (h : Roams c b t) (hb : b.Placid [c]) (hx : t.exhausted = false) :
    t.Placid [c] := by
  obtain ⟨moves, -, hf⟩ := (h hx).2 hb
  exact hb.follows hf

theorem Roams.trans (h : Roams c b t) (k : Roams c t u) : Roams c b u := by
  intro hx
  obtain ⟨hxt, hsecond⟩ := k hx
  obtain ⟨hxb, hfirst⟩ := h hxt
  refine ⟨hxb, fun hb => ?_⟩
  obtain ⟨moves, hmoves, hf⟩ := hfirst hb
  obtain ⟨moves', hmoves', hf'⟩ := hsecond (hb.follows hf)
  exact ⟨moves ++ moves', hmoves.append hmoves', List.map_append ▸ hf.trans_along hf'⟩

theorem exhausted_of_runWith {o : Operation} (hx : (o.runWith announce b).exhausted = false) :
    b.exhausted = false :=
  (plays_operation (fun b c e move k => plays_announceFrom depth b c e move k) b o hx).1

theorem state_commitWith (hb : b.Placid [c]) (target : State) :
    (b.commitWith announce c target).state c = target := by
  have hwalked := (follows_commit hb.heeded (hb.observed c List.mem_cons_self) target).walked c
  rw [hwalked.state (hb.known c List.mem_cons_self), along_self]
  rfl

theorem roams_commitWith (hl : Legal (b.state c) target)
    (hx : (b.commitWith announce c target).exhausted = false → b.exhausted = false) :
    Roams c b (b.commitWith announce c target) := by
  refine fun hend => ⟨hx hend, fun hb => ⟨[(b.state c, target)], ?_, ?_⟩⟩
  · rw [state_commitWith hb]
    exact .single hl
  · exact follows_commit hb.heeded (hb.observed c List.mem_cons_self) target

theorem request_of_accept (h : transition (b.state c) target = .accept) :
    b.request c target = (b.commitWith announce c target, .ok .accept) := by
  rw [request, requestWith, h]

theorem roams_request (b : Board) (c : ComponentId) (target : State) :
    Roams c b (b.request c target).1 := by
  by_cases ht : transition (b.state c) target = .accept
  · have hx := exhausted_of_runWith (b := b) (o := .request c target)
    rw [show Operation.runWith announce b (.request c target) = (b.request c target).1 from rfl] at hx
    rw [request_of_accept ht] at hx ⊢
    exact roams_commitWith (.inl ht) hx
  · rw [show (b.request c target).1 = b from runWith_refused announce ht]
    exact .refl b

theorem roams_fail (b : Board) (c : ComponentId) : Roams c b (b.fail c) := by
  by_cases hf : b.state c = .failed
  · rw [fail, failWith, if_pos hf]
    exact .refl b
  · have hx := exhausted_of_runWith (b := b) (o := .fail c)
    rw [show Operation.runWith announce b (.fail c) = b.commitWith announce c .failed from if_neg hf] at hx
    rw [show b.fail c = b.commitWith announce c .failed from if_neg hf]
    exact roams_commitWith (.inr ⟨rfl, hf⟩) hx

/-- Whatever a hook does to a component comes to legal moves of it. -/
theorem Meddles.roams (h : Meddles c b t) : Roams c b t := by
  induction h with
  | refl b => exact .refl b
  | trans _ _ ih ih' => exact ih.trans ih'
  | request b target => exact roams_request b c target
  | fail b => exact roams_fail b c
  | remark b e _ he =>
    refine fun hx => ⟨hx, fun _ => ⟨[], rfl, (follows_remark b he).congr fun _ => (ite_self _).symm⟩⟩
  | exhaust b =>
    intro hx
    cases hx

/-! ## Where requests and failures lead -/

theorem state_fail (hb : b.Placid [c]) : (b.fail c).state c = .failed := by
  by_cases hf : b.state c = .failed
  · rw [fail, failWith, if_pos hf, hf]
  · rw [show b.fail c = b.commitWith announce c .failed from if_neg hf, state_commitWith hb]

/-- A request that is not denied finds the component, or brings it, where it was asked to be. -/
theorem state_request (hb : b.Placid [c]) {o : Transition} (h : (b.request c target).2 = .ok o) :
    (b.request c target).1.state c = target := by
  unfold request requestWith at h ⊢
  cases ht : transition (b.state c) target with
  | deny => rw [ht] at h; cases h
  | ignore =>
    unfold transition at ht
    split at ht
    · cases ht
    · split at ht
      next heq => exact heq.1
      next => cases ht
  | accept => exact state_commitWith hb target

theorem request_denied {f : Fault} (h : (b.request c target).2 = .error f) :
    f = .denied (b.name c) (b.state c) target ∧ transition (b.state c) target = .deny ∧
      (b.request c target).1 = b := by
  unfold request requestWith at h ⊢
  cases ht : transition (b.state c) target with
  | deny =>
    rw [ht] at h
    exact ⟨(Except.error.inj h).symm, rfl, rfl⟩
  | ignore => rw [ht] at h; cases h
  | accept => rw [ht] at h; cases h

end Board

/-! ## What hooks may do -/

/-- Every single thing that the activity does is one that a hook may do to the component. -/
def Meddling {ω α : Type} (c : ComponentId) (x : Activity Board ω α) : Prop :=
  Guarantees Eq (Board.Meddles c) x

section

variable {ω α : Type} {c : ComponentId} {hook : Phase → Hook Board ω}

theorem meddling_onBoard {f : Board → Board × α} (h : ∀ b, Board.Meddles c b (f b).1) :
    Meddling c (onBoard f : Activity Board ω α) := guarantees_act h

theorem meddles_begin (b : Board) (c : ComponentId) (p : Phase) : Board.Meddles c b (b.begin c p).1 := by
  by_cases he : p.Enters (b.state c)
  · have hrequest := Board.Meddles.request (c := c) b p.transient
    rw [Board.request_of_accept (transition_eq_accept_iff.2 he.2)] at hrequest
    rw [Board.begin_of_enters he]
    exact hrequest
  · rw [Board.begin_of_not_enters he]
    exact .refl b

theorem meddling_conclude (c : ComponentId) (p : Phase) (outcome : Except String Unit) :
    Meddling c (conclude c p outcome : Activity Board ω (Except Fault Unit)) := by
  cases outcome with
  | error cause => exact guarantees_act fun b => Board.Meddles.fail b
  | ok => exact guarantees_act fun b => Board.Meddles.request b p.settled

theorem meddling_runSingle {hook : Hook Board ω} (h : Meddling c hook) (p : Phase) :
    Meddling c (runSingle hook c p) := by
  refine (meddling_onBoard fun b => meddles_begin b c p).bind fun begun => ?_
  match begun with
  | .error f => exact guarantees_pure _
  | .ok false => exact guarantees_pure _
  | .ok true => exact h.bind fun outcome => meddling_conclude c p outcome

/-- A phase is among what a hook may do, so that phases may nest. -/
theorem meddling_runPhase (h : ∀ q, Meddling c (hook q)) (p : Phase) :
    Meddling c (runPhase hook c p) := by
  refine (meddling_onBoard fun b => .refl b).bind fun state => ?_
  split
  · refine (meddling_runSingle (h .init) .init).bind fun outcome => ?_
    cases outcome with
    | error f => exact guarantees_pure _
    | ok => exact meddling_runSingle (h p) p
  · exact meddling_runSingle (h p) p

theorem meddling_action {run : Phase → Activity Board Empty (Except Fault Unit)}
    (h : ∀ q, Meddling Trial.self (run q)) (a : Trial.HookAction) : Meddling Trial.self (a.run run) := by
  cases a with
  | fail message => exact guarantees_pure _
  | request target => exact guarantees_act fun b => Board.Meddles.request b target
  | tryRequest target =>
    exact guarantees_act fun b => (Board.Meddles.request b target).trans (.remark _ _ rfl rfl)
  | forceFail => exact guarantees_act fun b => Board.Meddles.fail b
  | phase p =>
    refine (h p).bind fun outcome => ?_
    cases outcome with
    | error f => exact guarantees_pure _
    | ok => exact guarantees_pure _

theorem meddling_actions {run : Phase → Activity Board Empty (Except Fault Unit)}
    (h : ∀ q, Meddling Trial.self (run q)) (actions : List Trial.HookAction) :
    Meddling Trial.self (Trial.runActions run actions) := by
  induction actions with
  | nil => exact guarantees_pure _
  | cons a rest ih =>
    refine (meddling_action h a).bind fun outcome => ?_
    cases outcome with
    | error cause => exact guarantees_pure _
    | ok => exact ih

/-- However deep the phases of a script nest, it does what a hook may do. -/
theorem meddling_scriptHook (script : Trial.HookScript) (n : Nat) (p : Phase) :
    Meddling Trial.self (Trial.scriptHook script n p) := by
  induction n generalizing p with
  | zero => exact guarantees_act fun b => Board.Meddles.exhaust b
  | succ n ih =>
    refine (meddling_onBoard fun b => .remark b _ rfl rfl).bind fun _ => ?_
    exact meddling_actions (fun q => meddling_runPhase ih q) (script p)

end

/-! ## How a phase ends -/

/-- How a phase ends that began with the board `b`: it found its group reached and did nothing, or it
settled; it was denied where it stands; or its hook failed it. -/
def Comes (c : ComponentId) (p : Phase) (b : Board) : Except Fault Unit → Board → Prop
  | .ok (), t => ((b.state c).group = p.transient.group ∧ t = b) ∨ t.state c = p.settled
  | .error (.denied _ s u), t => transition s u = .deny ∧ t.state c = s
  | .error (.hookFailed ..), t => t.state c = .failed

section

variable {ω : Type} {c : ComponentId} {p : Phase} {b t : Board}

theorem comes_of_denied {f : Fault} {target : State} (h : (b.request c target).2 = .error f) :
    Comes c p t (.error f) (b.request c target).1 := by
  obtain ⟨rfl, hdeny, hb⟩ := Board.request_denied h
  exact ⟨hdeny, by rw [hb]⟩

theorem comes_of_not_enters (he : ¬ p.Enters (b.state c)) :
    Comes c p b (p.verdict (b.name c) (b.state c)) b := by
  unfold Phase.verdict
  by_cases hg : (b.state c).group = p.transient.group
  · rw [if_pos (.inl hg)]
    exact .inl ⟨hg, rfl⟩
  · have hs : p.transient ∉ (b.state c).successors := fun hs => he ⟨hg, hs⟩
    have hne : b.state c ≠ p.transient := fun heq => hg (congrArg State.group heq)
    rw [if_neg (not_or.2 ⟨hg, hs⟩)]
    exact ⟨by rw [transition, if_neg hs, if_neg fun h => hne h.1], rfl⟩

/-- What happens after the hook, wherever it left the component. -/
theorem conclude_comes (b u : Board) (outcome : Except String Unit) :
    Ensures Eq (conclude c p outcome : Activity Board ω (Except Fault Unit)) (fun _ out t =>
      u.Roams c t ∧ (u.Placid [c] → Comes c p b out t)) u := by
  cases outcome with
  | error cause => exact ensures_act.2 ⟨Board.roams_fail u c, fun hu => Board.state_fail hu⟩
  | ok =>
    refine ensures_act.2 ⟨Board.roams_request u c p.settled, fun hu => ?_⟩
    show Comes c p b ((u.request c p.settled).2.map _) _
    cases hr : (u.request c p.settled).2 with
    | error f => exact comes_of_denied hr
    | ok o => exact .inr (Board.state_request hu hr)

theorem runSingle_comes {hook : Hook Board ω} (h : Meddling c hook) (b : Board) :
    Ensures Eq (runSingle hook c p) (fun _ out t => b.Roams c t ∧
      (b.Placid [c] → t.exhausted = false → Comes c p b out t)) b := by
  simp only [runSingle, onBoard, ensures_bind, ensures_act, HasBoard.board, HasBoard.setBoard]
  by_cases he : p.Enters (b.state c)
  · have hbegin : b.Roams c (b.begin c p).1 := (meddles_begin b c p).roams
    rw [Board.begin_of_enters he] at hbegin ⊢
    refine ensures_bind.2 ((h.frame .refl (fun _ _ _ => .trans) (fun s _ hst => hst ▸ .refl s) _).mono
      fun _ outcome u hu => (conclude_comes b u outcome).mono fun _ out t ht => ?_)
    have hroams := hbegin.trans hu.roams
    exact ⟨hroams.trans ht.1, fun hb hx => ht.2 (hroams.placid hb (ht.1 hx).1)⟩
  · rw [Board.begin_of_not_enters he]
    have hcomes := comes_of_not_enters he
    cases hv : p.verdict (b.name c) (b.state c) with
    | error f => exact ensures_pure.2 ⟨.refl b, fun _ _ => hv ▸ hcomes⟩
    | ok => exact ensures_pure.2 ⟨.refl b, fun _ _ => hv ▸ hcomes⟩

/-- An initialization that comes before a start either fails it or leaves all to it. -/
theorem Comes.of_init {u : Board} {out : Except Fault Unit} (hn : needsInit p (b.state c) = true)
    (h : Comes c .init b (.ok ()) u) (k : Comes c p u out t) : Comes c p b out t := by
  obtain ⟨rfl, hinit, hstart⟩ := Phase.of_needsInit hn
  match out, k with
  | .ok (), .inr hs => exact .inr hs
  | .ok (), .inl ⟨hg, _⟩ =>
    rcases h with ⟨hg', -⟩ | hs
    · exact absurd hg' hinit.1
    · rw [hs] at hg
      exact absurd hg hstart.1
  | .error (.denied ..), hk => exact hk
  | .error (.hookFailed ..), hk => exact hk

theorem Comes.of_error {q : Phase} {f : Fault} (h : Comes c q b (.error f) t) : Comes c p b (.error f) t := by
  cases f with
  | denied => exact h
  | hookFailed => exact h

theorem runPhase_comes {hook : Phase → Hook Board ω} (h : ∀ q, Meddling c (hook q)) (b : Board) :
    Ensures Eq (runPhase hook c p) (fun _ out t => b.Roams c t ∧
      (b.Placid [c] → t.exhausted = false → Comes c p b out t)) b := by
  simp only [runPhase, onBoard, ensures_bind, ensures_act, HasBoard.board, HasBoard.setBoard]
  split
  next hn =>
    refine ensures_bind.2 ((runSingle_comes (h .init) b).mono fun _ out u hu => ?_)
    cases out with
    | error f => exact ensures_pure.2 ⟨hu.1, fun hb hx => (hu.2 hb hx).of_error⟩
    | ok =>
      refine (runSingle_comes (h p) u).mono fun _ out t ht => ⟨hu.1.trans ht.1, fun hb hx => ?_⟩
      have hxu := (ht.1 hx).1
      exact .of_init hn (hu.2 hb hxu) (ht.2 (hu.1.placid hb hxu) hx)
  next => exact (runSingle_comes (h p) b).mono fun _ out t ht => ht

end

/-- What a caller is promised of a phase that began with the board `b`. -/
structure Contract (c : ComponentId) (p : Phase) (b : Board) (out : Except Fault Unit) (t : Board) :
    Prop where
  reached : out = .ok () → (t.state c).group = p.transient.group
  /-- Unless the phase did nothing at all, and a hook that runs goes on record, it settled. -/
  settled : out = .ok () → t = b ∨ t.state c = p.settled
  hooked : out = .ok () → ∀ news, t.journal = news ++ b.journal → .hooked c p ∈ news →
    t.state c = p.settled
  failed : ∀ name s cause, out = .error (.hookFailed name s cause) → t.state c = .failed
  denied : ∀ name s u, out = .error (.denied name s u) → transition s u = .deny ∧ t.state c = s
  events : ∃ moves, Linked (b.state c) moves (t.state c) ∧ ∀ i, t.heard c i = b.heard c i ++
    if b.isSubscribed c i then moves.map fun m => .moved (b.name c) m.1 m.2 else []

theorem itinerary_linked {name : String} {s t : State} {moves : List (State × State)}
    (h : Linked s moves t) :
    itinerary name s (moves.map (·.2)) = moves.map fun m => .moved name m.1 m.2 := by
  induction moves generalizing s with
  | nil => rfl
  | cons m moves ih =>
    rw [List.map_cons, itinerary, ih h.2.2, List.map_cons, h.1]

theorem Comes.contract {c : ComponentId} {p : Phase} {b t : Board} {out : Except Fault Unit}
    (h : Comes c p b out t) (hr : b.Roams c t) (hb : b.Placid [c]) (hx : t.exhausted = false) :
    Contract c p b out t where
  reached := by
    rintro rfl
    rcases h with ⟨hg, rfl⟩ | hs
    · exact hg
    · rw [hs]
      cases p <;> rfl
  settled := by
    rintro rfl
    exact h.imp_left (·.2)
  hooked := by
    rintro rfl news hnews hmem
    rcases h with ⟨-, rfl⟩ | hs
    · rw [List.self_eq_append_left.1 hnews] at hmem
      cases hmem
    · exact hs
  failed := by
    rintro name s cause rfl
    exact h
  denied := by
    rintro name s u rfl
    exact h
  events := by
    obtain ⟨moves, hmoves, hf⟩ := (hr hx).2 hb
    refine ⟨moves, hmoves, fun i => ?_⟩
    rw [(hf.walked c).heard, Board.along_self, itinerary_linked hmoves]

/-- Nothing suspends a script. -/
theorem run_eq_complete {α : Type} (b : Board) (x : Activity Board Empty α) :
    x.run b = .finished (Trial.complete b x).2 (Trial.complete b x).1 := by
  unfold Trial.complete
  cases x.run b with
  | finished a t => rfl
  | parked w rest t => exact w.elim

/-- Whatever its hooks do to the component, be they scripts nested to any depth, a phase keeps what it
promises; and what is refused or ignored on the way leaves the board as it is. -/
theorem phases_keep_contract :
    (∀ {ω : Type} (hook : Phase → Hook Board ω) (c : ComponentId) (p : Phase) (b t : Board)
      (out : Except Fault Unit), (∀ q, Meddling c (hook q)) → b.Placid [c] →
      (runPhase hook c p).run b = .finished out t → t.exhausted = false → Contract c p b out t) ∧
    (∀ (script : Trial.HookScript) (n : Nat) (p : Phase) (b : Board), b.Placid [Trial.self] →
      let ended := Trial.complete b (runPhase (Trial.scriptHook script n) Trial.self p)
      ended.1.exhausted = false → Contract Trial.self p b ended.2 ended.1) ∧
    ∀ (b : Board) (c : ComponentId) (target : State),
      transition (b.state c) target ≠ .accept → (b.request c target).1 = b := by
  have hgeneral : ∀ {ω : Type} (hook : Phase → Hook Board ω) (c : ComponentId) (p : Phase) (b t : Board)
      (out : Except Fault Unit), (∀ q, Meddling c (hook q)) → b.Placid [c] →
      (runPhase hook c p).run b = .finished out t → t.exhausted = false → Contract c p b out t := by
    intro ω hook c p b t out hhook hb hrun hx
    obtain ⟨own, hruns⟩ : ∃ own, Runs Eq _ b own out t := Runs.of_run (fun _ => rfl) hrun
    have hend := runPhase_comes hhook b own out t hruns
    exact (hend.2 hb hx).contract hend.1 hb hx
  refine ⟨hgeneral, fun script n p b hb hx => ?_, fun b c target h => runWith_refused Board.announce h⟩
  exact hgeneral _ Trial.self p b _ _ (meddling_scriptHook script n) hb (run_eq_complete b _) hx

/-- A start whose hook is refused a move, fails its component, and initializes it anew. -/
def relapsing : Trial.HookScript
  | .start => [.tryRequest .stopping, .forceFail, .phase .destroy, .phase .init]
  | _ => []

theorem phases_keep_contract_relapsing :
    let run := runPhase (Trial.scriptHook relapsing 3) Trial.self .start
    let ended := Trial.complete (bare "c" .initialized) run
    (bare "c" .initialized).Placid [Trial.self] ∧ (∀ q, Meddling Trial.self (Trial.scriptHook relapsing 3 q)) ∧
      run.run (bare "c" .initialized) = .finished ended.2 ended.1 ∧ ended.1.exhausted = false ∧
      ended.2 = .ok () ∧ Contract Trial.self .start (bare "c" .initialized) ended.2 ended.1 ∧
      ended.1.heard 0 0 = itinerary "c" .initialized
        [.starting, .failed, .destroying, .destroyed, .initializing, .initialized, .started] ∧
      transition .starting .stopping ≠ .accept ∧
      ((bare "c" .starting).request 0 .stopping).1 = bare "c" .starting := by
  intro run ended
  have hx : ended.1.exhausted = false := by rfl
  have hb := placid_bare "c" .initialized
  have hmeddling := meddling_scriptHook relapsing 3
  have hrun := run_eq_complete (bare "c" .initialized) run
  have hdeny : transition .starting .stopping ≠ .accept := by decide
  obtain ⟨hgeneral, -, hrefused⟩ := phases_keep_contract
  exact ⟨hb, hmeddling, hrun, hx, by rfl, hgeneral _ _ _ _ _ _ hmeddling hb hrun hx, by rfl, hdeny,
    hrefused (bare "c" .starting) 0 .stopping hdeny⟩

end Switchboard.Lifecycle
