import Mathlib.Data.List.Nodup
import Switchboard.Container.Custody
import Switchboard.Proofs.Listening
import Switchboard.Proofs.Transfer

/-!
# What becomes of a child

A child, its slot and parents that claim it, release it or are dropped, while it
lives its own life. Each turn changes the custody in one of four ways (`Passes`),
and a `Chronicle` is a history that is possible at all: a claim finds no live
owner, a release gives back what the live owner holds, and a drop frees what the
dropped one held. The history of every run is a chronicle that leads to its owner,
and what the child's listeners hear is just its claims and releases.
-/

namespace Switchboard

namespace Lifecycle.Board

variable {b : Board} {c : ComponentId}

theorem transfers_announce_moved (b : Board) (c : ComponentId) (name : String) (source target : State) :
    (b.announce c (.moved name source target)).transfers = b.transfers :=
  transfers_announceFrom_moved depth b c name source target

theorem transfers_request (b : Board) (c : ComponentId) (target : State) :
    (b.request c target).1.transfers = b.transfers :=
  transfers_performWith transfers_announce_moved b c (.request c target)

theorem transfers_fail (b : Board) (c : ComponentId) : (b.fail c).transfers = b.transfers :=
  transfers_performWith transfers_announce_moved b c (.fail c)

theorem transfers_begin (b : Board) (c : ComponentId) (p : Phase) : (b.begin c p).1.transfers = b.transfers := by
  rcases begin_cases b c p with h | h
  · rw [h]
  · rw [h, transfers_request]

end Lifecycle.Board

namespace Container

open Lifecycle hiding Fault

/-- What may happen to a child and its parents. -/
inductive Turn where
  | step (s : CustodyStep)
  | fail
  | begin (p : Phase)

/-- A change to who owns the child, or to who might. -/
inductive Change where
  | claimed (o : Owner)
  | released (o : Owner)
  | dropped (parent : Nat)
  deriving DecidableEq

/-- What the child's listeners hear of a change. -/
def Change.event? (child : String) : Change → Option Event
  | claimed o => some (.owned child none (some o.name))
  | released o => some (.owned child (some o.name) none)
  | dropped _ => none

namespace Custody

def turn (c : Custody) : Turn → Custody
  | .step s => (c.step s).1
  | .fail => { c with board := c.board.fail child }
  | .begin p => { c with board := (c.board.begin child p).1 }

/-- The change that a turn makes, read off its answer. -/
def change? (c : Custody) : Turn → Option Change
  | .step (.claim label name) =>
    match (c.step (.claim label name)).2 with
    | .claimed (.ok true) => some (.claimed ⟨name, (c.mention label).2⟩)
    | _ => none
  | .step (.release label) =>
    match (c.step (.release label)).2 with
    | .truth true => c.slot.map .released
    | _ => none
  | .step (.drop label) => (c.parents.lookup label).map .dropped
  | _ => none

def run (c : Custody) (ts : List Turn) : Custody := ts.foldl turn c

/-- The changes that the turns make, in order. -/
def history : Custody → List Turn → List Change
  | _, [] => []
  | c, t :: ts => (c.change? t).toList ++ (c.turn t).history ts

/-- Parents have labels and numbers of their own, and none has a number yet to be given. -/
structure Sound (c : Custody) : Prop where
  labels : (c.parents.map (·.1)).Nodup
  numbers : (c.parents.map (·.2)).Nodup
  made : ∀ p ∈ c.parents, p.2 < c.made
  slot : ∀ o, c.slot = some o → o.parent < c.made

theorem sound_start (b : Board) : ({ board := b } : Custody).Sound :=
  ⟨List.nodup_nil, List.nodup_nil, fun _ h => (nomatch h), fun _ h => (nomatch h)⟩

variable {c c' : Custody} {label : String} {o : Owner} {p : Nat}

theorem Sound.of_eq (h : c.Sound) (hp : c'.parents = c.parents) (hm : c'.made = c.made)
    (hs : ∀ o, c'.slot = some o → o.parent < c.made) : c'.Sound :=
  ⟨hp ▸ h.labels, hp ▸ h.numbers, hp ▸ hm ▸ h.made, hm ▸ hs⟩

theorem isAlive_iff : c.isAlive p = true ↔ ∃ label, (label, p) ∈ c.parents := by
  simp [isAlive]

theorem owner_eq_some_iff : c.owner = some o ↔ c.slot = some o ∧ c.isAlive o.parent = true :=
  OwnerSlot.live_eq_some_iff

/-- The owner depends on the slot and on whether the one it names is alive. -/
theorem owner_congr (hs : c'.slot = c.slot)
    (ha : ∀ o, c.slot = some o → c'.isAlive o.parent = c.isAlive o.parent) : c'.owner = c.owner := by
  refine Option.ext fun o => ?_
  rw [owner_eq_some_iff, owner_eq_some_iff, hs]
  exact and_congr_right fun h => by rw [ha o h]

/-! ## Mentions -/

theorem mention_cases (c : Custody) (label : String) :
    (∃ n, c.parents.lookup label = some n ∧ c.mention label = (c, n)) ∨
    (c.parents.lookup label = none ∧ c.mention label =
      ({ c with parents := (label, c.made) :: c.parents, made := c.made + 1 }, c.made)) := by
  rw [mention]
  cases h : c.parents.lookup label with
  | none => exact .inr ⟨rfl, rfl⟩
  | some n => exact .inl ⟨n, rfl, rfl⟩

theorem slot_mention (c : Custody) (label : String) : (c.mention label).1.slot = c.slot := by
  rcases c.mention_cases label with ⟨n, -, h⟩ | ⟨-, h⟩ <;> rw [h]

theorem board_mention (c : Custody) (label : String) : (c.mention label).1.board = c.board := by
  rcases c.mention_cases label with ⟨n, -, h⟩ | ⟨-, h⟩ <;> rw [h]

/-- Whoever is mentioned is alive. -/
theorem isAlive_mention_self (c : Custody) (label : String) :
    (c.mention label).1.isAlive (c.mention label).2 = true := by
  rcases c.mention_cases label with ⟨n, hn, h⟩ | ⟨-, h⟩
  · obtain ⟨before, after, hp, -⟩ := List.lookup_eq_some_iff.1 hn
    rw [h]
    exact isAlive_iff.2 ⟨label, by simp [hp]⟩
  · rw [h]
    exact isAlive_iff.2 ⟨label, List.mem_cons_self⟩

/-- A mention brings nobody back. -/
theorem isAlive_mention (hp : p < c.made) (label : String) :
    (c.mention label).1.isAlive p = c.isAlive p := by
  rcases c.mention_cases label with ⟨n, -, h⟩ | ⟨-, h⟩
  · rw [h]
  · rw [h, isAlive, List.any_cons, decide_eq_false (show ¬ c.made = p by omega), Bool.false_or, isAlive]

theorem Sound.mention (h : c.Sound) (label : String) : (c.mention label).1.Sound := by
  rcases c.mention_cases label with ⟨n, -, hm⟩ | ⟨hn, hm⟩
  · rwa [hm]
  · rw [hm]
    refine ⟨List.nodup_cons.2 ⟨fun hl => ?_, h.labels⟩, List.nodup_cons.2 ⟨fun hl => ?_, h.numbers⟩,
      List.forall_mem_cons.2 ⟨Nat.lt_succ_self _, fun p hp => Nat.lt_succ_of_lt (h.made p hp)⟩,
      fun o ho => Nat.lt_succ_of_lt (h.slot o ho)⟩
    · obtain ⟨p, hp, rfl⟩ := List.mem_map.1 hl
      simpa using List.lookup_eq_none_iff.1 hn p hp
    · obtain ⟨p, hp, hpm⟩ := List.mem_map.1 hl
      exact absurd (h.made p hp) (Nat.not_lt.2 (Nat.le_of_eq hpm.symm))

theorem owner_mention (h : c.Sound) (label : String) : (c.mention label).1.owner = c.owner :=
  owner_congr (c.slot_mention label) fun o ho => isAlive_mention (h.slot o ho) label

/-! ## Claims and releases -/

/-- The custody when an owner was put into the slot, or taken out, and listeners have heard of that. -/
def handed (c : Custody) (slot : OwnerSlot) (e : Event) : Custody :=
  { c with slot, board := c.board.announce child e }

/-- A claim takes effect where the child is not on its way out and has no live owner; else all stays as it is. -/
theorem claim_cases (c : Custody) (o : Owner) :
    (OwnerSlot.isDoomed (c.board.state child) = false ∧ c.owner = none ∧
      c.claim o = (c.handed (some o) (.owned (c.board.name child) none (some o.name)), .ok true)) ∨
    (c.claim o).1 = c ∧ (c.claim o).2 ≠ .ok true ∧
      (OwnerSlot.isDoomed (c.board.state child) = false → c.isAlive o.parent = true → c.owner ≠ none) ∧
      (OwnerSlot.isDoomed (c.board.state child) = true → ∃ f, (c.claim o).2 = .error f) := by
  rw [claim, OwnerSlot.claimOn, OwnerSlot.claim]
  by_cases hd : OwnerSlot.isDoomed (c.board.state child) = true
  · rw [if_pos hd]
    exact .inr ⟨rfl, by simp, fun hn => absurd (hd.symm.trans hn) (by decide), fun _ => ⟨_, rfl⟩⟩
  by_cases ho : c.slot.isOwnedBy o.parent = true
  · rw [if_neg hd, if_pos ho]
    obtain ⟨own, hs, hp⟩ := OwnerSlot.isOwnedBy_iff.1 ho
    refine .inr ⟨rfl, by simp, fun _ halive hnone => ?_, fun hn => absurd hn hd⟩
    rw [owner_eq_some_iff.2 ⟨hs, hp ▸ halive⟩] at hnone
    cases hnone
  rw [if_neg hd, if_neg ho]
  cases hl : c.slot.live c.isAlive with
  | some own =>
    refine .inr ⟨rfl, by simp, fun _ _ hnone => ?_, fun hn => absurd hn hd⟩
    rw [owner, hl] at hnone
    cases hnone
  | none => exact .inl ⟨Bool.not_eq_true _ ▸ hd, hl, rfl⟩

theorem release_cases (c : Custody) (p : Nat) :
    (∃ o, c.slot = some o ∧ o.parent = p ∧
      c.release p = (c.handed none (.owned (c.board.name child) (some o.name) none), true)) ∨
    (c.slot.isOwnedBy p = false ∧ c.release p = (c, false)) := by
  by_cases ho : c.slot.isOwnedBy p = true
  · obtain ⟨o, hs, hp⟩ := OwnerSlot.isOwnedBy_iff.1 ho
    refine .inl ⟨o, hs, hp, ?_⟩
    rw [release, OwnerSlot.releaseOn, hs, show OwnerSlot.release p (some o) = some (none, o.name) by
      simp [OwnerSlot.release, Option.filter, hp]]
    rfl
  · rw [release, OwnerSlot.releaseOn, OwnerSlot.release_of_not_owned ho]
    exact .inr ⟨Bool.not_eq_true _ ▸ ho, rfl⟩

/-! ## What a turn can do -/

theorem step_claim (c : Custody) (label name : String) :
    let claimed := (c.mention label).1.claim ⟨name, (c.mention label).2⟩
    c.step (.claim label name) = (claimed.1, .claimed claimed.2) := rfl

theorem step_release (c : Custody) (label : String) :
    let released := (c.mention label).1.release (c.mention label).2
    c.step (.release label) = (released.1, .truth released.2) := rfl

/-- What a turn comes to, by the change that it makes. -/
inductive Passes (c : Custody) : Option Change → Custody → Prop where
  | quiet {c' : Custody} : c'.owner = c.owner → c.board.Evolves c'.board →
      c'.board.transfers = c.board.transfers → Passes c none c'
  | claimed {c' : Custody} {o : Owner} : c.owner = none → c'.owner = some o →
      c'.board = c.board.announce child (.owned (c.board.name child) none (some o.name)) →
      Passes c (some (.claimed o)) c'
  | released {c' : Custody} {o : Owner} : c.owner = some o → c'.owner = none →
      c'.board = c.board.announce child (.owned (c.board.name child) (some o.name) none) →
      Passes c (some (.released o)) c'
  | dropped {c' : Custody} {p : Nat} : c'.owner = c.owner.filter (·.parent ≠ p) → c'.board = c.board →
      Passes c (some (.dropped p)) c'

theorem mem_parents_of_lookup (h : c.parents.lookup label = some p) : (label, p) ∈ c.parents := by
  obtain ⟨before, after, hp, -⟩ := List.lookup_eq_some_iff.1 h
  simp [hp]

/-- Who is alive when the parent of a label has been dropped. -/
theorem Sound.isAlive_drop (h : c.Sound) (hl : c.parents.lookup label = some p) (q : Nat) :
    (c.step (.drop label)).1.isAlive q = (c.isAlive q && decide (q ≠ p)) := by
  have hmem := mem_parents_of_lookup hl
  rw [Bool.eq_iff_iff, Bool.and_eq_true, decide_eq_true_eq, isAlive_iff, isAlive_iff]
  simp only [step, List.mem_filter, decide_eq_true_eq, ne_eq]
  constructor
  · rintro ⟨l, hq, hne⟩
    refine ⟨⟨l, hq⟩, fun he => hne ?_⟩
    subst he
    exact congrArg Prod.fst (List.inj_on_of_nodup_map h.numbers hq hmem rfl)
  · rintro ⟨⟨l, hq⟩, hne⟩
    refine ⟨l, hq, fun he => hne ?_⟩
    subst he
    exact congrArg Prod.snd (List.inj_on_of_nodup_map h.labels hq hmem rfl)

theorem Sound.turn (h : c.Sound) (t : Turn) : (c.turn t).Sound := by
  match t with
  | .fail | .begin p | .step (.change target) => exact h.of_eq rfl rfl h.slot
  | .step (.ownedBy label) => exact h.mention label
  | .step (.drop label) =>
    exact ⟨h.labels.sublist (List.filter_sublist.map _), h.numbers.sublist (List.filter_sublist.map _),
      fun p hp => h.made p (List.mem_filter.1 hp).1, h.slot⟩
  | .step (.claim label name) =>
    have hm := h.mention label
    rw [Custody.turn, step_claim]
    rcases (c.mention label).1.claim_cases ⟨name, (c.mention label).2⟩ with ⟨-, -, hc⟩ | ⟨hc, -⟩
    · rw [hc]
      refine hm.of_eq rfl rfl fun o ho => ?_
      obtain ⟨l, hl⟩ := isAlive_iff.1 (c.isAlive_mention_self label)
      exact Option.some.inj ho ▸ hm.made _ hl
    · rwa [hc]
  | .step (.release label) =>
    have hm := h.mention label
    rw [Custody.turn, step_release]
    rcases (c.mention label).1.release_cases (c.mention label).2 with ⟨o, -, -, hr⟩ | ⟨-, hr⟩
    · rw [hr]
      exact hm.of_eq rfl rfl fun o ho => (nomatch ho)
    · rwa [hr]

theorem passes_mention (h : c.Sound) (label : String) : c.Passes none (c.mention label).1 := by
  refine .quiet (owner_mention h label) ?_ ?_
  · rw [board_mention]
    exact .refl _
  · rw [board_mention]

theorem passes_turn (h : c.Sound) (t : Turn) : c.Passes (c.change? t) (c.turn t) := by
  match t with
  | .fail => exact .quiet rfl (Board.evolves_fail ..) (Board.transfers_fail ..)
  | .begin p => exact .quiet rfl (Board.evolves_begin ..) (Board.transfers_begin ..)
  | .step (.change target) => exact .quiet rfl (Board.evolves_request ..) (Board.transfers_request ..)
  | .step (.ownedBy label) => exact passes_mention h label
  | .step (.drop label) =>
    rw [change?]
    cases hl : c.parents.lookup label with
    | none =>
      -- nobody has the label, and nobody is dropped
      have hstay : c.turn (.step (.drop label)) = c := by
        have hall : c.parents.filter (fun p => p.1 ≠ label) = c.parents :=
          List.filter_eq_self.2 fun p hp => decide_eq_true fun he => by
            simpa [he] using List.lookup_eq_none_iff.1 hl p hp
        rw [turn, step, hall]
      rw [hstay]
      exact .quiet rfl (.refl _) rfl
    | some p =>
      refine .dropped (Option.ext fun o => ?_) rfl
      rw [owner_eq_some_iff, turn, h.isAlive_drop hl, Option.filter_eq_some_iff, owner_eq_some_iff,
        Bool.and_eq_true, and_assoc]
      rfl
  | .step (.claim label name) =>
    have howner := owner_mention h label
    have hboard := c.board_mention label
    rw [change?, turn, step_claim]
    rcases (c.mention label).1.claim_cases ⟨name, (c.mention label).2⟩ with ⟨-, hfree, hc⟩ | ⟨hstay, hno, -⟩
    · rw [hc]
      refine .claimed (howner ▸ hfree) ?_ (hboard ▸ rfl)
      exact owner_eq_some_iff.2 ⟨rfl, c.isAlive_mention_self label⟩
    · rw [hstay]
      have hnone : c.Passes none (c.mention label).1 := passes_mention h label
      cases hans : ((c.mention label).1.claim ⟨name, (c.mention label).2⟩).2 with
      | error f => exact hnone
      | ok b =>
        cases b with
        | true => exact absurd hans hno
        | false => exact hnone
  | .step (.release label) =>
    have hboard := c.board_mention label
    rw [change?, turn, step_release]
    rcases (c.mention label).1.release_cases (c.mention label).2 with ⟨o, hs, hp, hr⟩ | ⟨-, hr⟩
    · rw [hr, show c.slot = some o from c.slot_mention label ▸ hs]
      refine .released ?_ rfl (hboard ▸ rfl)
      exact owner_mention h label ▸ owner_eq_some_iff.2 ⟨hs, hp ▸ c.isAlive_mention_self label⟩
    · rw [hr]
      exact passes_mention h label

/-! ## Chronicles -/

/-- A history that leads from one owner to another. -/
inductive Chronicle : Option Owner → List Change → Option Owner → Prop where
  | nil (a : Option Owner) : Chronicle a [] a
  | claimed {o : Owner} {cs : List Change} {b : Option Owner} :
      Chronicle (some o) cs b → Chronicle none (.claimed o :: cs) b
  | released {o : Owner} {cs : List Change} {b : Option Owner} :
      Chronicle none cs b → Chronicle (some o) (.released o :: cs) b
  | dropped {a : Option Owner} {p : Nat} {cs : List Change} {b : Option Owner} :
      Chronicle (a.filter (·.parent ≠ p)) cs b → Chronicle a (.dropped p :: cs) b

theorem chronicle_history (h : c.Sound) (ts : List Turn) : Chronicle c.owner (c.history ts) (c.run ts).owner := by
  induction ts generalizing c with
  | nil => exact .nil c.owner
  | cons t ts ih =>
    have hrest := ih (h.turn t)
    have hpass := passes_turn h t
    rw [history]
    show Chronicle c.owner ((c.change? t).toList ++ (c.turn t).history ts) ((c.turn t).run ts).owner
    generalize c.change? t = change at hpass ⊢
    cases hpass with
    | quiet ho _ _ => exact ho ▸ hrest
    | claimed hfree ho _ =>
      rw [ho] at hrest
      rw [hfree]
      exact .claimed hrest
    | released ho hfree _ =>
      rw [hfree] at hrest
      rw [ho]
      exact .released hrest
    | dropped ho _ =>
      rw [ho] at hrest
      exact .dropped hrest

theorem Chronicle.split {a b : Option Owner} {cs cs' : List Change} (h : Chronicle a (cs ++ cs') b) :
    ∃ o, Chronicle a cs o ∧ Chronicle o cs' b := by
  induction cs generalizing a with
  | nil => exact ⟨a, .nil a, h⟩
  | cons ch cs ih =>
    cases h with
    | claimed h =>
      obtain ⟨o, h₁, h₂⟩ := ih h
      exact ⟨o, .claimed h₁, h₂⟩
    | released h =>
      obtain ⟨o, h₁, h₂⟩ := ih h
      exact ⟨o, .released h₁, h₂⟩
    | dropped h =>
      obtain ⟨o, h₁, h₂⟩ := ih h
      exact ⟨o, .dropped h₁, h₂⟩

/-- An owner goes by its own release, or when it is dropped. -/
theorem Chronicle.lost {o : Owner} {cs : List Change} {b : Option Owner} (h : Chronicle (some o) cs b) :
    b = some o ∨ .released o ∈ cs ∨ .dropped o.parent ∈ cs := by
  induction cs with
  | nil =>
    cases h
    exact .inl rfl
  | cons ch cs ih =>
    cases h with
    | released => exact .inr (.inl List.mem_cons_self)
    | dropped h =>
      rename_i p
      by_cases hp : o.parent = p
      · exact .inr (.inr (hp ▸ List.mem_cons_self))
      rw [Option.filter_some_pos (by simpa using hp)] at h
      exact (ih h).imp_right (Or.imp (List.mem_cons_of_mem _) (List.mem_cons_of_mem _))

/-- Between two claims the first owner is lost. -/
theorem Chronicle.lost_between {a b : Option Owner} {o o' : Owner} {before between after : List Change}
    (h : Chronicle a (before ++ .claimed o :: (between ++ .claimed o' :: after)) b) :
    .released o ∈ between ∨ .dropped o.parent ∈ between := by
  obtain ⟨_, -, h⟩ := h.split
  cases h with
  | claimed h =>
    obtain ⟨_, hbetween, hafter⟩ := h.split
    cases hafter with
    | claimed => exact hbetween.lost.resolve_left fun hnone => (nomatch hnone)

/-- Each change of owner goes on from the one before it, from having none to having one or back. -/
def Handed : Option String → List Event → Option String → Prop
  | a, [], b => a = b
  | a, .owned _ previous current :: es, b =>
    previous = a ∧ previous.isSome ≠ current.isSome ∧ Handed current es b
  | _, .moved .. :: _, _ => False

theorem Chronicle.handed {a b : Option Owner} {cs : List Change} (h : Chronicle a cs b) (child : String)
    (hd : ∀ p, .dropped p ∉ cs) :
    Handed (a.map (·.name)) (cs.filterMap (Change.event? child)) (b.map (·.name)) := by
  induction h with
  | nil => rfl
  | claimed _ ih => exact ⟨rfl, by simp, ih fun p hp => hd p (List.mem_cons_of_mem _ hp)⟩
  | released _ ih => exact ⟨rfl, by simp, ih fun p hp => hd p (List.mem_cons_of_mem _ hp)⟩
  | dropped => exact absurd List.mem_cons_self (hd _)

/-! ## What is heard -/

/-- The listener hears of what becomes of the child. -/
def Listens (c : Custody) (i : ListenerId) : Prop :=
  c.board.exhausted = false ∧ c.board.isSubscribed child i = true

instance (c : Custody) (i : ListenerId) : Decidable (c.Listens i) := inferInstanceAs (Decidable (_ ∧ _))

variable {ch : Option Change}

theorem Passes.later (h : c.Passes ch c') : c.board.Later c'.board := by
  cases h with
  | quiet _ he _ => exact he.later
  | claimed _ _ hb | released _ _ hb => exact hb ▸ (Board.evolves_announce ..).later
  | dropped _ hb => exact hb ▸ Board.Later.refl _

theorem Passes.listens (h : c.Passes ch c') {i : ListenerId} (hl : c'.Listens i) : c.Listens i :=
  ⟨h.later.heeded hl.1, h.later.subscribed _ _ hl.2⟩

theorem Passes.name (h : c.Passes ch c') : c'.board.name child = c.board.name child := by
  rw [Board.name_eq, h.later.names, Board.name_eq]

/-- What a turn lets a listener of the child hear. -/
theorem Passes.transfers (h : c.Passes ch c') (i : ListenerId) :
    c'.board.transfers child i = c.board.transfers child i ++
      if c.Listens i then (ch.bind (Change.event? (c.board.name child))).toList else [] := by
  cases h with
  | quiet _ _ ht => simp [ht]
  | dropped _ hb => simp [hb, Change.event?]
  | claimed _ _ hb | released _ _ hb =>
    rw [hb, Board.transfers_announce_owned]
    exact congrArg _ (if_congr (and_iff_right rfl) rfl rfl)

theorem listens_of_run (h : c.Sound) {i : ListenerId} (ts : List Turn) (hl : (c.run ts).Listens i) :
    c.Listens i := by
  induction ts generalizing c with
  | nil => exact hl
  | cons t ts ih => exact (passes_turn h t).listens (ih (h.turn t) hl)

/-- A listener that has ceased to listen hears of nothing more. -/
theorem transfers_run_of_not_listens (h : c.Sound) {i : ListenerId} (hl : ¬ c.Listens i) (ts : List Turn) :
    (c.run ts).board.transfers child i = c.board.transfers child i := by
  induction ts generalizing c with
  | nil => rfl
  | cons t ts ih =>
    have hpass := passes_turn h t
    rw [show c.run (t :: ts) = (c.turn t).run ts from rfl, ih (h.turn t) fun hl' => hl (hpass.listens hl'),
      hpass.transfers, if_neg hl, List.append_nil]

/-- The changes of owner in a run, as the child's listeners may hear of them. -/
def events (c : Custody) (ts : List Turn) : List Event :=
  (c.history ts).filterMap (Change.event? (c.board.name child))

theorem events_cons (h : c.Sound) (t : Turn) (ts : List Turn) : c.events (t :: ts) =
    ((c.change? t).bind (Change.event? (c.board.name child))).toList ++ (c.turn t).events ts := by
  rw [events, history, List.filterMap_append, events, (passes_turn h t).name]
  cases c.change? t with
  | none => rfl
  | some ch => cases ch <;> rfl

/-- A listener hears of the changes from the first on, each once; of all of them, if it listens to the end. -/
theorem transfers_run (h : c.Sound) (ts : List Turn) (i : ListenerId) :
    ∃ heard, (c.run ts).board.transfers child i = c.board.transfers child i ++ heard ∧
      heard <+: c.events ts ∧ ((c.run ts).Listens i → heard = c.events ts) := by
  induction ts generalizing c with
  | nil => exact ⟨[], (List.append_nil _).symm, List.nil_prefix, fun _ => rfl⟩
  | cons t ts ih =>
    have hpass := passes_turn h t
    have hrun : c.run (t :: ts) = (c.turn t).run ts := rfl
    rw [events_cons h, hrun]
    by_cases hl : c.Listens i
    · obtain ⟨heard, heq, hpre, hall⟩ := ih (h.turn t)
      rw [heq, hpass.transfers, if_pos hl, List.append_assoc]
      exact ⟨_, rfl, (List.prefix_append_right_inj _).2 hpre, fun hl' => by rw [hall hl']⟩
    · have hstay := transfers_run_of_not_listens h hl (t :: ts)
      rw [hrun] at hstay
      have hdeaf : ¬ ((c.turn t).run ts).Listens i := fun hl' => hl (listens_of_run h (t :: ts) hl')
      exact ⟨[], by rw [hstay, List.append_nil], List.nil_prefix, fun hl' => absurd hl' hdeaf⟩

/-! ## A live owner is never displaced -/

/-- What holds of a custody that began with an empty slot, on any board, and has been through the turns. -/
structure Guarded (b : Board) (ts : List Turn) (start c : Custody) : Prop where
  /-- Between two claims that took effect the first owner gave the child up, or was dropped. -/
  undisplaced : ∀ before o between o' after,
    start.history ts = before ++ .claimed o :: (between ++ .claimed o' :: after) →
      .released o ∈ between ∨ .dropped o.parent ∈ between
  /-- A claim that takes no effect changes neither the slot nor the board, and the owner's never takes any. -/
  claim_futile : ∀ label name, (c.slot.isOwnedBy (c.mention label).2 = true →
      (c.step (.claim label name)).2 ≠ .claimed (.ok true)) ∧
    ((c.step (.claim label name)).2 ≠ .claimed (.ok true) →
      (c.step (.claim label name)).1.slot = c.slot ∧ (c.step (.claim label name)).1.board = c.board)
  release_futile : ∀ label, c.slot.isOwnedBy (c.mention label).2 = false →
    (c.step (.release label)).2 = .truth false ∧
      (c.step (.release label)).1.slot = c.slot ∧ (c.step (.release label)).1.board = c.board
  doomed : ∀ label name, OwnerSlot.isDoomed (c.board.state child) = true →
    ∃ f, (c.step (.claim label name)).2 = .claimed (.error f)
  /-- Each listener hears of the claims and releases that took effect, once and in order. -/
  heard : ∀ i, ∃ heard, c.board.transfers child i = b.transfers child i ++ heard ∧
    heard <+: start.events ts ∧ (c.Listens i → heard = start.events ts)
  /-- Where nobody is dropped, the changes follow on one another and lead to the owner. -/
  handed : (∀ p, .dropped p ∉ start.history ts) → Handed none (start.events ts) (c.owner.map (·.name))

theorem sound_run (h : c.Sound) (ts : List Turn) : (c.run ts).Sound :=
  List.foldlRecOn ts turn (motive := Sound) h fun _ hc t _ => hc.turn t

/-- A claim takes effect exactly where the child is not on its way out and has no live owner. -/
theorem claimed_iff (h : c.Sound) (label name : String) :
    (c.step (.claim label name)).2 = .claimed (.ok true) ↔
      OwnerSlot.isDoomed (c.board.state child) = false ∧ c.owner = none := by
  have hboard := c.board_mention label
  have howner := owner_mention h label
  rw [step_claim, ← hboard, ← howner, CustodyAnswer.claimed.injEq]
  rcases (c.mention label).1.claim_cases ⟨name, (c.mention label).2⟩ with
    ⟨hd, hfree, hc⟩ | ⟨-, hno, hheld, -⟩
  · rw [hc]
    exact iff_of_true rfl ⟨hd, hfree⟩
  · exact iff_of_false hno fun ⟨hd, hfree⟩ => hheld hd (c.isAlive_mention_self label) hfree

/-- The owner of the child claims it in vain. -/
theorem not_claimed_of_owned (h : c.Sound) (ho : c.slot.isOwnedBy (c.mention label).2 = true) (name : String) :
    (c.step (.claim label name)).2 ≠ .claimed (.ok true) := by
  rw [ne_eq, claimed_iff h]
  rintro ⟨-, hfree⟩
  obtain ⟨o, hs, hp⟩ := OwnerSlot.isOwnedBy_iff.1 ho
  have howner : (c.mention label).1.owner = some o :=
    owner_eq_some_iff.2 ⟨c.slot_mention label ▸ hs, hp ▸ c.isAlive_mention_self label⟩
  rw [owner_mention h, hfree] at howner
  cases howner

theorem step_claim_of_not_claimed {name : String} (h : (c.step (.claim label name)).2 ≠ .claimed (.ok true)) :
    (c.step (.claim label name)).1.slot = c.slot ∧ (c.step (.claim label name)).1.board = c.board := by
  rw [step_claim] at h ⊢
  rcases (c.mention label).1.claim_cases ⟨name, (c.mention label).2⟩ with ⟨-, -, hc⟩ | ⟨hstay, -⟩
  · exact absurd (congrArg CustodyAnswer.claimed (congrArg Prod.snd hc)) h
  · rw [hstay]
    exact ⟨c.slot_mention label, c.board_mention label⟩

theorem step_claim_of_doomed (h : OwnerSlot.isDoomed (c.board.state child) = true) (label name : String) :
    ∃ f, (c.step (.claim label name)).2 = .claimed (.error f) := by
  rw [← c.board_mention label] at h
  rw [step_claim]
  rcases (c.mention label).1.claim_cases ⟨name, (c.mention label).2⟩ with ⟨hd, -⟩ | ⟨-, -, -, herror⟩
  · exact absurd (h.symm.trans hd) (by decide)
  · obtain ⟨f, hf⟩ := herror h
    exact ⟨f, congrArg CustodyAnswer.claimed hf⟩

theorem step_release_of_not_owned (h : c.slot.isOwnedBy (c.mention label).2 = false) :
    (c.step (.release label)).2 = .truth false ∧
      (c.step (.release label)).1.slot = c.slot ∧ (c.step (.release label)).1.board = c.board := by
  rw [step_release]
  rcases (c.mention label).1.release_cases (c.mention label).2 with ⟨o, hs, hp, -⟩ | ⟨-, hr⟩
  · have ho : c.slot.isOwnedBy (c.mention label).2 = true :=
      OwnerSlot.isOwnedBy_iff.2 ⟨o, c.slot_mention label ▸ hs, hp⟩
    exact absurd (ho.symm.trans h) (by decide)
  · rw [hr]
    exact ⟨rfl, c.slot_mention label, c.board_mention label⟩

/-- A live owner is never displaced. Parents claim and release a child and are dropped in any order, while
the child goes through its states: an owner loses the child only by giving it up or by being dropped, what
takes no effect leaves slot and listeners alone, a child on its way out is claimed by nobody, and listeners
hear of each change once and in order. -/
theorem custody_guarded (b : Board) (ts : List Turn) :
    Guarded b ts { board := b } (({ board := b } : Custody).run ts) := by
  have hstart := sound_start b
  have hchron := chronicle_history hstart ts
  have hc := sound_run hstart ts
  exact {
    undisplaced := fun before o between o' after h => (h ▸ hchron).lost_between
    claim_futile := fun label name => ⟨fun ho => not_claimed_of_owned hc ho name, step_claim_of_not_claimed⟩
    release_futile := fun label => step_release_of_not_owned
    doomed := fun label name h => step_claim_of_doomed h label name
    heard := transfers_run hstart ts
    handed := hchron.handed _ }

-- the second owner of a name is not the dropped one, which its claim overwrites
example : (new "ctx").history [.step (.claim "p" "svc"), .step (.claim "q" "other"), .step (.release "q"),
      .step (.drop "p"), .step (.claim "p" "svc"), .step (.change .destroyed), .step (.claim "q" "other")] =
    [.claimed ⟨"svc", 0⟩, .dropped 0, .claimed ⟨"svc", 2⟩] := by decide

end Custody
end Container
end Switchboard
