import Mathlib.Algebra.Group.Pi.Basic
import Mathlib.Algebra.GroupWithZero.Nat
import Switchboard.Proofs.Listening

/-!
# Counted moves

The first listener of every component counts the moves that it hears of. Where no
announcement is cut short and these listeners stay, a move is counted when it is
announced, and announced when it is committed: so from any board to a later one,
the count grows by the moves that are committed (`Counts`), however deep the
announcements nest.
-/

namespace Switchboard.Lifecycle

/-- The event tells that a component of the name came into the state. -/
def Event.arrives (name : String) (st : State) : Event → Bool
  | moved n _ target => n = name && target = st
  | owned .. => false

/-- The entry is a move of a component of the name into the state, where the components have these names. -/
def Entry.arrives (names : List String) (name : String) (st : State) : Entry → Bool
  | committed c _ target => names[c]? = some name && target = st
  | _ => false

/-- The entry tells that a counting listener heard of such a move. -/
def Entry.counts (name : String) (st : State) : Entry → Bool
  | delivered _ i _ e => i = 0 && e.arrives name st
  | _ => false

namespace Board

/-- How often components of a name were moved into a state. -/
def arrivals (b : Board) (name : String) (st : State) : Nat := b.journal.countP (·.arrives b.names name st)

/-- How often the counting listeners heard of that. -/
def counted (b : Board) (name : String) (st : State) : Nat := b.journal.countP (·.counts name st)

/-- The first listener of every component is subscribed, and no announcement was cut short. -/
structure Attended (b : Board) : Prop where
  heeded : b.exhausted = false
  subscribed : ∀ c, (b.manager? c).isSome = true → b.isSubscribed c 0 = true

variable {b t u : Board} {k k' : String → State → Nat}

theorem names_getElem? (b : Board) (c : ComponentId) : b.names[c]? = (b.manager? c).map (·.name) :=
  List.getElem?_map ..

theorem attended_of_managers (hx : b.exhausted = false) (hs : ∀ m ∈ b.managers, m.isSubscribed 0 = true) :
    b.Attended := by
  refine ⟨hx, fun c hc => ?_⟩
  obtain ⟨m, hm⟩ := Option.isSome_iff_exists.1 hc
  rw [isSubscribed, hm]
  exact hs m (List.mem_of_getElem? hm)

theorem Later.known (h : Later b t) (c : ComponentId) : (t.manager? c).isSome = (b.manager? c).isSome := by
  have hc : t.names[c]? = b.names[c]? := by rw [h.names]
  rw [names_getElem?, names_getElem?] at hc
  simpa using congrArg Option.isSome hc

theorem Later.attended (h : Later b t) (ht : t.Attended) : b.Attended :=
  ⟨h.heeded ht.heeded, fun c hc => h.subscribed c 0 (ht.subscribed c ((h.known c).trans hc))⟩

/-- From `b` to `t` the count grew by the moves that were committed, and by what `k` says besides. -/
structure Counts (b t : Board) (k : String → State → Nat) : Prop where
  later : Later b t
  counted : t.Attended → ∀ name st,
    t.counted name st + b.arrivals name st = b.counted name st + t.arrivals name st + k name st

theorem Counts.refl (b : Board) : Counts b b 0 := ⟨.refl b, fun _ _ _ => rfl⟩

theorem Counts.trans (h : Counts b t k) (h' : Counts t u k') : Counts b u (k + k') := by
  refine ⟨h.later.trans h'.later, fun hu name st => ?_⟩
  have h₁ := h.counted (h'.later.attended hu) name st
  have h₂ := h'.counted hu name st
  simp only [Pi.add_apply]
  omega

theorem Counts.congr (h : Counts b t k) (hk : t.Attended → k = k') : Counts b t k' :=
  ⟨h.later, fun ht => hk ht ▸ h.counted ht⟩

/-! ## Single changes -/

theorem counts_told (b : Board) (c : ComponentId) (i : ListenerId) (label : String) (e : Event) :
    Counts b (b.log (.delivered c i label e)) fun name st =>
      if i = 0 ∧ e.arrives name st = true then 1 else 0 := by
  refine ⟨(Evolves.told b c i label e).later, fun _ name st => ?_⟩
  simp [log, Board.counted, arrivals, Entry.counts, Entry.arrives, List.countP_cons, names]
  omega

theorem counts_dismissed (b : Board) (c : ComponentId) (label : String) :
    Counts b (b.unsubscribeLabel c label) 0 := by
  refine ⟨later_unsubscribeLabel b c label, fun _ name st => ?_⟩
  rw [arrivals, arrivals, names_unsubscribeLabel]
  rfl

theorem arrivals_moved (b : Board) (c : ComponentId) (target : State) (name : String) (st : State) :
    (b.moved c target).arrivals name st =
      b.arrivals name st + if b.names[c]? = some name ∧ target = st then 1 else 0 := by
  have hnames : (b.moved c target).names = b.names := (Evolves.moved b c target).later.names
  rw [arrivals, hnames, arrivals]
  simp [moved, log, update, List.countP_cons, Entry.arrives]

/-! ## Moves and announcements -/

/-- What an announcement adds to the count, where the component is there. -/
def due (b : Board) (c : ComponentId) (e : Event) (name : String) (st : State) : Nat :=
  if (b.manager? c).isSome = true ∧ e.arrives name st = true then 1 else 0

section

variable {announce : Board → ComponentId → Event → Board}
  (ha : ∀ b c e, Counts b (announce b c e) (b.due c e))
include ha

theorem counts_commitWith (b : Board) (c : ComponentId) (target : State) :
    Counts b (b.commitWith announce c target) 0 := by
  have h := ha (b.moved c target) c (.moved (b.name c) (b.state c) target)
  refine ⟨(Evolves.moved b c target).later.trans h.later, fun ht name st => ?_⟩
  have hcount := h.counted ht name st
  have hstill : (b.moved c target).counted name st = b.counted name st := by
    simp [moved, log, update, Board.counted, Entry.counts]
  -- what is committed of a component that is there is what is announced
  have hdue : (b.moved c target).due c (.moved (b.name c) (b.state c) target) name st =
      if b.names[c]? = some name ∧ target = st then 1 else 0 := by
    rw [due, isSome_manager?_moved, names_getElem?, Board.name]
    cases b.manager? c <;> simp [Event.arrives]
  rw [hstill, hdue, arrivals_moved] at hcount
  show (announce (b.moved c target) c _).counted name st + _ =
    _ + (announce (b.moved c target) c _).arrivals name st + 0
  omega

theorem counts_requestWith (b : Board) (c : ComponentId) (target : State) :
    Counts b (b.requestWith announce c target).1 0 := by
  rw [requestWith]
  cases transition (b.state c) target with
  | deny => exact .refl b
  | ignore => exact .refl b
  | accept => exact counts_commitWith ha b c target

theorem counts_failWith (b : Board) (c : ComponentId) : Counts b (b.failWith announce c) 0 := by
  rw [failWith]
  split
  · exact .refl b
  · exact counts_commitWith ha b c .failed

theorem counts_performWith (b : Board) (c : ComponentId) (d : Deed) :
    Counts b (b.performWith announce c d) 0 := by
  cases d with
  | request d target => exact counts_requestWith ha b d target
  | fail d => exact counts_failWith ha b d
  | unsubscribe label => exact counts_dismissed b c label

theorem counts_tellWith (c : ComponentId) (e : Event) (b : Board) (l : ListenerId × Subscription) :
    Counts b (tellWith announce c e b l) fun name st =>
      if l.1 = 0 ∧ e.arrives name st = true then 1 else 0 := by
  have hdeeds : ∀ (deeds : List Deed) (b : Board),
      Counts b (deeds.foldl (fun b d => b.performWith announce c d) b) 0 :=
    fun deeds b => List.foldlRecOn deeds _ (motive := fun t => Counts b t 0) (.refl b)
      fun t ht d _ => ht.trans (counts_performWith ha t c d)
  exact (counts_told b c l.1 l.2.label e).trans (hdeeds _ _)

/-- The listeners that are told count as many times as the first is among them. -/
theorem counts_tell (c : ComponentId) (e : Event) (ls : List (ListenerId × Subscription)) (b : Board) :
    Counts b (ls.foldl (tellWith announce c e) b) fun name st =>
      if e.arrives name st = true then ls.countP (·.1 = 0) else 0 := by
  induction ls generalizing b with
  | nil => exact (Counts.refl b).congr fun _ => by funext; simp
  | cons l ls ih =>
    refine ((counts_tellWith ha c e b l).trans (ih _)).congr fun _ => ?_
    funext name st
    by_cases he : e.arrives name st = true <;> by_cases hl : l.1 = 0 <;> simp [he, hl, Nat.add_comm]

end

/-- Of the listeners that are subscribed, one is the first, if it is. -/
theorem countP_active (b : Board) (c : ComponentId) :
    (b.active c).countP (·.1 = 0) = if b.isSubscribed c 0 = true then 1 else 0 := by
  rw [active, isSubscribed]
  cases b.manager? c with
  | none => rfl
  | some m =>
    have h := congrArg List.length (filterMap_active m 0 (.owned "" none none))
    rw [List.length_filterMap_eq_countP, apply_ite List.length] at h
    refine Eq.trans (List.countP_congr fun l _ => ?_) h
    by_cases hl : l.1 = 0 <;> simp [hl]

theorem counts_announceFrom (n : Nat) (b : Board) (c : ComponentId) (e : Event) :
    Counts b (announceFrom n b c e) (b.due c e) := by
  induction n generalizing b c e with
  | zero => exact ⟨(Evolves.exhausted b).later, fun ht => (nomatch ht.heeded)⟩
  | succ n ih =>
    rw [announceFrom]
    split
    next hx => exact ⟨.refl b, fun ht => absurd hx (by simp [ht.heeded])⟩
    next =>
      have hall := counts_tell ih c e (b.active c) b
      refine hall.congr fun ht => ?_
      have hb := hall.later.attended ht
      funext name st
      -- the first listener of a component that is there is subscribed, and where there is none nobody is
      have hfirst : b.isSubscribed c 0 = (b.manager? c).isSome := by
        cases hm : b.manager? c with
        | none => rw [isSubscribed, hm]; rfl
        | some m => exact hb.subscribed c (by rw [hm]; rfl)
      rw [countP_active, hfirst, due]
      by_cases he : e.arrives name st = true <;> simp [he]

theorem counts_announce (b : Board) (c : ComponentId) (e : Event) : Counts b (b.announce c e) (b.due c e) :=
  counts_announceFrom depth b c e

/-! ## Operations -/

/-- From `b` to `t` the count grew by just the moves that were committed. -/
abbrev Even (b t : Board) : Prop := Counts b t 0

theorem Even.trans (h : Even b t) (k : Even t u) : Even b u := Counts.trans h k

theorem even_request (b : Board) (c : ComponentId) (target : State) : Even b (b.request c target).1 :=
  counts_requestWith counts_announce b c target

theorem even_fail (b : Board) (c : ComponentId) : Even b (b.fail c) := counts_failWith counts_announce b c

theorem even_begin (b : Board) (c : ComponentId) (p : Phase) : Even b (b.begin c p).1 := by
  rcases begin_cases b c p with h | h
  · rw [h]
    exact Counts.refl b
  · rw [h]
    exact even_request b c p.transient

end Board
end Switchboard.Lifecycle
