import Switchboard.Lifecycle.Phases
import Switchboard.Proofs.Board
import Switchboard.Proofs.Runs

/-!
# Walks on the board

Where listeners only listen, a move changes the state of one component and each
of its listeners hears of it once. `Walked b b' c path`: from `b` to `b'` the
component went through the states of the path, and its listeners heard just that.
`Follows` says it of all components, each with a route of its own, and
`barePhase` is what a phase does to one component without hooks.
-/

namespace Switchboard.Lifecycle

open Activity

/-- What is heard of a component that goes through the states of a path. -/
def itinerary (name : String) : State → List State → List Event
  | _, [] => []
  | source, target :: path => .moved name source target :: itinerary name target path

theorem itinerary_append (name : String) (source : State) (path path' : List State) :
    itinerary name source (path ++ path') =
      itinerary name source path ++ itinerary name (path.getLastD source) path' := by
  induction path generalizing source with
  | nil => rfl
  | cons target path ih =>
    rw [List.cons_append, itinerary, ih, itinerary, List.cons_append, List.getLastD_cons]

namespace Board

/-- The listeners of the component answer nothing. -/
def Observed (b : Board) (c : ComponentId) : Prop := ∀ l ∈ b.active c, ∀ e, l.2.respond e = []

def isSubscribed (b : Board) (c : ComponentId) (i : ListenerId) : Bool :=
  ((b.manager? c).map (·.isSubscribed i)).getD false

/-- The component went through the states of the path. Its name and its listeners are the same, and
each listener has heard of every move. -/
structure Walked (b b' : Board) (c : ComponentId) (path : List State) : Prop where
  manager : b'.manager? c = (b.manager? c).map fun m => { m with state := path.getLastD m.state }
  heard : ∀ i, b'.heard c i =
    b.heard c i ++ if b.isSubscribed c i then itinerary (b.name c) (b.state c) path else []

/-- The route on which some components go through a path and the others stay. -/
def along (cs : List ComponentId) (path : List State) (d : ComponentId) : List State :=
  if d ∈ cs then path else []

theorem along_of_mem {cs : List ComponentId} {d : ComponentId} (h : d ∈ cs) (path : List State) :
    along cs path d = path := if_pos h

theorem along_of_not_mem {cs : List ComponentId} {d : ComponentId} (h : d ∉ cs) (path : List State) :
    along cs path d = [] := if_neg h

@[simp] theorem along_self (c : ComponentId) (path : List State) : along [c] path c = path :=
  along_of_mem List.mem_cons_self path

/-- Every component went through the states of its route. -/
structure Follows (b b' : Board) (route : ComponentId → List State) : Prop where
  walked : ∀ c, Walked b b' c (route c)
  exhausted : b'.exhausted = b.exhausted

variable {b b' b'' : Board} {c d : ComponentId} {path path' : List State}
  {route route' : ComponentId → List State} {target : State}

/-! ## What a walk comes to -/

theorem Walked.name (h : Walked b b' c path) : b'.name c = b.name c := by
  rw [Board.name, h.manager, Board.name]
  cases b.manager? c <;> rfl

theorem Walked.known (h : Walked b b' c path) : (b'.manager? c).isSome = (b.manager? c).isSome := by
  rw [h.manager, Option.isSome_map]

theorem Walked.state (h : Walked b b' c path) (hc : (b.manager? c).isSome = true) :
    b'.state c = path.getLastD (b.state c) := by
  obtain ⟨m, hm⟩ := Option.isSome_iff_exists.1 hc
  rw [Board.state, h.manager, Board.state, hm]
  rfl

/-- A component that went nowhere is as it was, also where there is none. -/
theorem Walked.stayed (h : Walked b b' c []) : b'.manager? c = b.manager? c ∧
    ∀ i, b'.heard c i = b.heard c i := by
  constructor
  · rw [h.manager]
    cases b.manager? c <;> rfl
  · intro i
    rw [h.heard, itinerary, ite_self, List.append_nil]

theorem Walked.state_eq (h : Walked b b' c []) : b'.state c = b.state c := by
  rw [Board.state, h.stayed.1, Board.state]

theorem Walked.isSubscribed (h : Walked b b' c path) (i : ListenerId) :
    b'.isSubscribed c i = b.isSubscribed c i := by
  rw [Board.isSubscribed, h.manager, Board.isSubscribed]
  cases b.manager? c <;> rfl

theorem Walked.observed (h : Walked b b' c path) (ho : b.Observed c) : b'.Observed c := by
  have hactive : b'.active c = b.active c := by
    rw [Board.active, h.manager, Board.active]
    cases b.manager? c <;> rfl
  rw [Observed, hactive]
  exact ho

theorem Walked.refl (b : Board) (c : ComponentId) : Walked b b c [] := by
  refine ⟨?_, fun i => ?_⟩
  · cases b.manager? c <;> rfl
  · rw [itinerary, ite_self, List.append_nil]

theorem Walked.trans (h : Walked b b' c path) (k : Walked b' b'' c path') :
    Walked b b'' c (path ++ path') := by
  refine ⟨?_, fun i => ?_⟩
  · rw [k.manager, h.manager]
    cases b.manager? c with
    | none => rfl
    | some m => simp [List.getLastD_eq_getLast?, List.getLast?_append, Option.getD_or]
  · rw [k.heard, h.heard, h.isSubscribed, h.name, List.append_assoc]
    congr 1
    split
    next hi =>
      have hc : (b.manager? c).isSome = true := by
        unfold Board.isSubscribed at hi
        cases hm : b.manager? c with
        | none => rw [hm] at hi; cases hi
        | some m => rfl
      rw [h.state hc, itinerary_append]
    next => rfl

theorem Follows.refl (b : Board) : Follows b b fun _ => [] := ⟨.refl b, rfl⟩

theorem Follows.trans (h : Follows b b' route) (k : Follows b' b'' route') :
    Follows b b'' fun c => route c ++ route' c :=
  ⟨fun c => (h.walked c).trans (k.walked c), k.exhausted.trans h.exhausted⟩

theorem Follows.trans_along {cs : List ComponentId} (h : Follows b b' (along cs path))
    (k : Follows b' b'' (along cs path')) : Follows b b'' (along cs (path ++ path')) := by
  have hc : (fun d => along cs path d ++ along cs path' d) = along cs (path ++ path') := by
    funext d
    unfold along
    split <;> rfl
  exact hc ▸ h.trans k

theorem Follows.congr (h : Follows b b' route) (hr : ∀ c, route c = route' c) :
    Follows b b' route' := ⟨fun c => hr c ▸ h.walked c, h.exhausted⟩

/-! ## Moves -/

/-- Of the listeners that are subscribed, the one of a number is told once. -/
theorem filterMap_active (m : Manager) (i : ListenerId) (e : Event) :
    m.active.filterMap (fun l => if l.1 = i then some e else none) =
      if m.isSubscribed i then [e] else [] := by
  have h : ∀ (subs : List Subscription) (i k : Nat),
      (subs.zipIdx k).filterMap (fun l => if l.1.active && l.2 == i then some e else none) =
        if decide (k ≤ i) && (subs[i - k]?.map (·.active)).getD false then [e] else [] := by
    intro subs i
    induction subs with
    | nil => simp
    | cons s subs ih =>
      intro k
      rw [List.zipIdx_cons, List.filterMap_cons, ih (k + 1)]
      -- The first listener has the number `k`, and the others have greater ones.
      rcases Nat.lt_trichotomy i k with hlt | rfl | hgt
      · simp [show ¬ k ≤ i by omega, show ¬ k + 1 ≤ i by omega, show k ≠ i by omega]
      · cases hs : s.active <;> simp [hs, show ¬ i + 1 ≤ i by omega]
      · have hget : (s :: subs)[i - k]? = subs[i - (k + 1)]? := by
          rw [show i - k = (i - (k + 1)) + 1 by omega, List.getElem?_cons_succ]
        simp [hget, show k ≤ i by omega, show k + 1 ≤ i by omega, show k ≠ i by omega]
  have hi := h m.subscriptions i 0
  rw [Manager.active, List.filterMap_filter, List.filterMap_map, Manager.isSubscribed]
  refine (congrArg (List.filterMap · _) (funext fun l => ?_)).trans (hi.trans ?_)
  · cases hs : l.1.active <;> simp [hs]
  · simp

/-- Listeners that answer nothing are told one after the other. -/
theorem announce_observed {e : Event} (hx : b.exhausted = false)
    (h : ∀ l ∈ b.active c, l.2.respond e = []) :
    b.announce c e =
      { b with journal := ((b.active c).map fun l => .delivered c l.1 l.2.label e).reverse ++ b.journal } := by
  have hfold : ∀ (ls : List (ListenerId × Subscription)) (b : Board),
      (∀ l ∈ ls, l.2.respond e = []) → ls.foldl (tellWith (announceFrom 999) c e) b =
        { b with journal := (ls.map fun l => .delivered c l.1 l.2.label e).reverse ++ b.journal } := by
    intro ls
    induction ls with
    | nil => exact fun _ _ => rfl
    | cons l ls ih =>
      intro b hl
      rw [List.foldl_cons, tellWith, hl l List.mem_cons_self, List.foldl_nil,
        ih _ fun l' hl' => hl l' (List.mem_cons_of_mem l hl'), List.map_cons, List.reverse_cons,
        List.append_assoc]
      rfl
  show announceFrom (999 + 1) b c e = _
  rw [announceFrom, if_neg (hx ▸ Bool.false_ne_true)]
  exact hfold _ b h

/-- A move of a component, which its listeners hear of and no others do. -/
theorem follows_commit (hx : b.exhausted = false) (ho : b.Observed c) (target : State) :
    Follows b (b.commitWith announce c target) (along [c] [target]) := by
  have hmanager := fun d => manager?_update b c d fun m => { m with state := target }
  have hactive : (b.update c fun m => { m with state := target }).active c = b.active c := by
    rw [active, hmanager, if_pos rfl, active]
    cases b.manager? c <;> rfl
  have hcommit : b.commitWith announce c target = {
      b.update c fun m => { m with state := target } with
      journal := ((b.active c).map fun l =>
          .delivered c l.1 l.2.label (.moved (b.name c) (b.state c) target)).reverse ++
        .committed c (b.state c) target :: b.journal } := by
    rw [← hactive]
    refine announce_observed hx fun l hl => ?_
    exact ho l (hactive ▸ hl) _
  rw [hcommit]
  refine ⟨fun d => ⟨(hmanager d).trans ?_, fun i => ?_⟩, rfl⟩
  · by_cases hd : d = c
    · rw [if_pos hd.symm, hd, along_self]
      rfl
    · rw [if_neg fun h => hd h.symm, along_of_not_mem (by simpa using hd)]
      cases b.manager? d <;> rfl
  · simp only [heard, List.reverse_append, List.reverse_reverse, List.reverse_cons,
      List.filterMap_append, List.filterMap_map, List.append_assoc]
    congr 1
    by_cases hd : d = c
    · subst hd
      simp only [along_self, List.filterMap_cons, List.filterMap_nil, List.nil_append, true_and,
        itinerary, Function.comp_def, isSubscribed, active]
      cases b.manager? d with
      | none => rfl
      | some m => exact filterMap_active m i _
    · simp [hd, Ne.symm hd, itinerary, along]

/-- Every one of the components is there and observed, and announcements are not cut short. -/
structure Placid (b : Board) (cs : List ComponentId) : Prop where
  heeded : b.exhausted = false
  known : ∀ c ∈ cs, (b.manager? c).isSome = true
  observed : ∀ c ∈ cs, b.Observed c

theorem Placid.follows {cs : List ComponentId} (h : b.Placid cs) (hf : Follows b b' route) :
    b'.Placid cs where
  heeded := hf.exhausted.trans h.heeded
  known c hc := (hf.walked c).known.trans (h.known c hc)
  observed c hc := (hf.walked c).observed (h.observed c hc)

theorem Placid.subset {cs ds : List ComponentId} (h : b.Placid cs) (hd : ds ⊆ cs) : b.Placid ds :=
  ⟨h.heeded, fun c hc => h.known c (hd hc), fun c hc => h.observed c (hd hc)⟩

end Board

/-! ## Phases, move by move -/

namespace Phase

/-- The phase moves a component that is in the state. -/
def Enters (p : Phase) (st : State) : Prop :=
  st.group ≠ p.transient.group ∧ p.transient ∈ st.successors

instance (p : Phase) (st : State) : Decidable (p.Enters st) := inferInstanceAs (Decidable (_ ∧ _))

/-- The states that a component goes through in the phase, when no initialization comes before. -/
def steps (p : Phase) (st : State) : List State := if p.Enters st then [p.transient, p.settled] else []

/-- What the phase comes to when no initialization comes before and no hook fails. -/
def verdict (p : Phase) (name : String) (st : State) : Except Fault Unit :=
  if st.group = p.transient.group ∨ p.transient ∈ st.successors then .ok ()
  else .error (.denied name st p.transient)

/-- The states that a component goes through in the phase. -/
def route (p : Phase) (st : State) : List State :=
  if needsInit p st then Phase.init.steps st ++ p.steps .initialized else p.steps st

variable {p : Phase} {st : State}

/-- Nothing that has yet to be initialized is moved by another phase than `init`. -/
theorem Enters.no_init (h : p.Enters st) : needsInit p st = false := by
  cases p <;> cases st <;> first | rfl | exact absurd h (by decide)

theorem steps_of_enters (h : p.Enters st) : p.steps st = [p.transient, p.settled] := if_pos h

theorem verdict_of_enters (h : p.Enters st) (name : String) : p.verdict name st = .ok () :=
  if_pos (.inr h.2)

/-- A start that has to initialize first finds its component initialized then. -/
theorem of_needsInit (h : needsInit p st = true) :
    p = .start ∧ Phase.init.Enters st ∧ p.Enters .initialized := by
  cases p <;> cases st <;> first | exact ⟨rfl, by decide, by decide⟩ | exact absurd h (by decide)

end Phase

namespace Board

variable {b : Board} {c : ComponentId} {p : Phase}

theorem begin_of_enters (h : p.Enters (b.state c)) :
    b.begin c p = (b.commitWith announce c p.transient, .ok true) := by
  rw [begin, if_neg h.1, request, requestWith, transition_eq_accept_iff.2 h.2]

theorem begin_of_not_enters (h : ¬ p.Enters (b.state c)) :
    b.begin c p = (b, (p.verdict (b.name c) (b.state c)).map fun _ => false) := by
  rw [begin, Phase.verdict]
  split
  next hg => rw [if_pos (.inl hg)]; rfl
  next hg =>
    have hs : p.transient ∉ (b.state c).successors := fun hs => h ⟨hg, hs⟩
    have hne : b.state c ≠ p.transient := fun he => hg (congrArg State.group he)
    rw [if_neg (not_or.2 ⟨hg, hs⟩), request, requestWith, transition, if_neg hs,
      if_neg fun he => hne he.1]
    rfl

theorem request_settled (h : b.state c = p.transient) :
    b.request c p.settled = (b.commitWith announce c p.settled, .ok .accept) := by
  have hs : p.settled ∈ p.transient.successors := by cases p <;> decide
  rw [request, requestWith, transition_eq_accept_iff.2 (h ▸ hs)]

theorem fail_of_transient (h : b.state c = p.transient) :
    b.fail c = b.commitWith announce c .failed := by
  have hne : p.transient ≠ .failed := by cases p <;> decide
  rw [fail, failWith, if_neg fun he => hne (h.symm.trans he)]

end Board

/-! ## A component without hooks -/

/-- A component on its own, with one listener. -/
def bare (name : String) (st : State) : Board :=
  { managers := [{ name, state := st, subscriptions := [.quiet "listener"] }] }

theorem placid_bare (name : String) (st : State) : (bare name st).Placid [0] := by
  refine ⟨rfl, fun c hc => ?_, fun c hc l hl e => ?_⟩
  · rw [List.mem_singleton.1 hc]; rfl
  · rw [List.mem_singleton.1 hc] at hl
    rw [List.mem_singleton.1 hl]
    exact Board.respond_quiet _ e

def bareHook : Hook Board Empty := pure (f := Activity Board Empty) (.ok ())

/-- What a phase of it comes to, with the board after it. -/
def barePhase (name : String) (st : State) (p : Phase) : Except Fault Unit × Board :=
  match (runPhase (fun _ => bareHook) 0 p).run (bare name st) with
  | .finished out b => (out, b)
  | .parked signal _ _ => signal.elim

section

variable {b : Board} {c : ComponentId}

theorem bareSingle_walks (h : b.Placid [c]) (p : Phase) :
    Completes (runSingle bareHook c p) (fun out t => out = p.verdict (b.name c) (b.state c) ∧
      b.Follows t (Board.along [c] (p.steps (b.state c)))) b := by
  refine completes_bind.2 (completes_act.2 ?_)
  have ho := h.observed c List.mem_cons_self
  by_cases he : p.Enters (b.state c)
  · have hbegin := Board.follows_commit h.heeded ho p.transient
    have hb := h.follows hbegin
    have hstate := (hbegin.walked c).state (h.known c List.mem_cons_self)
    rw [Board.along_self] at hstate
    have hend := Board.follows_commit hb.heeded (hb.observed c List.mem_cons_self) p.settled
    rw [Phase.verdict_of_enters he, Phase.steps_of_enters he]
    simp only [HasBoard.board, HasBoard.setBoard, Board.begin_of_enters he, bareHook, conclude,
      completes_bind, completes_pure, onBoard, completes_act, Board.request_settled hstate]
    exact ⟨rfl, hbegin.trans_along hend⟩
  · simp only [HasBoard.board, HasBoard.setBoard, Board.begin_of_not_enters he]
    have hstay : b.Follows b (Board.along [c] (p.steps (b.state c))) := (Board.Follows.refl b).congr fun d => by
      rw [Board.along, Phase.steps, if_neg he, ite_self]
    cases hv : p.verdict (b.name c) (b.state c) with
    | ok => exact completes_pure.2 ⟨rfl, hstay⟩
    | error f => exact completes_pure.2 ⟨rfl, hstay⟩

theorem barePhase_walks (name : String) (st : State) (p : Phase) :
    (barePhase name st p).1 = (if needsInit p st then .ok () else p.verdict name st) ∧
      (bare name st).Follows (barePhase name st p).2 (Board.along [0] (p.route st)) := by
  have hp := placid_bare name st
  have hrun : Completes (runPhase (fun _ => bareHook) 0 p) (fun out t =>
      out = (if needsInit p st then .ok () else p.verdict name st) ∧
        (bare name st).Follows t (Board.along [0] (p.route st))) (bare name st) := by
    refine completes_bind.2 (completes_act.2 ?_)
    have hstate : (bare name st).state 0 = st := rfl
    have hname : (bare name st).name 0 = name := rfl
    simp only [HasBoard.board, HasBoard.setBoard, hstate]
    by_cases hn : needsInit p st = true
    · obtain ⟨rfl, hinit, hstart⟩ := Phase.of_needsInit hn
      rw [if_pos hn, if_pos hn, Phase.route, if_pos hn]
      refine completes_bind.2 ((bareSingle_walks hp .init).mono ?_)
      rintro out t ⟨ho, ht⟩
      have hafter := (ht.walked 0).state (hp.known 0 List.mem_cons_self)
      rw [hstate, Phase.steps_of_enters hinit, Board.along_self] at hafter
      rw [hstate, Phase.verdict_of_enters hinit] at ho
      subst ho
      refine (bareSingle_walks (hp.follows ht) .start).mono ?_
      rintro out u ⟨ho, hu⟩
      rw [hafter] at ho hu
      exact ⟨ho.trans (Phase.verdict_of_enters hstart _), ht.trans_along hu⟩
    · have hs := bareSingle_walks hp p
      rw [hstate, hname] at hs
      rw [if_neg hn, if_neg hn, Phase.route, if_neg hn]
      exact hs
  obtain ⟨out, t, hrun, h⟩ := hrun
  rw [barePhase, hrun]
  exact h

theorem barePhase_outcome (name : String) (st : State) (p : Phase) :
    (barePhase name st p).1 = if needsInit p st then .ok () else p.verdict name st :=
  (barePhase_walks name st p).1

theorem barePhase_state (name : String) (st : State) (p : Phase) :
    (barePhase name st p).2.state 0 = (p.route st).getLastD st :=
  ((barePhase_walks name st p).2.walked 0).state rfl

theorem barePhase_heard (name : String) (st : State) (p : Phase) :
    (barePhase name st p).2.heard 0 0 = itinerary name st (p.route st) :=
  ((barePhase_walks name st p).2.walked 0).heard 0

end

end Switchboard.Lifecycle
