import Switchboard.Proofs.Registries
import Switchboard.Proofs.Walks

/-!
# Transfers between owners

A child that another live component owns is given up there before it is claimed, so
a claim that is refused comes after the release. `GaveUp s t o c` is what the release
comes to: `c` is out of the registry of `o` and has no owner, its listeners heard of
that, and all other registries and owners are the same.
-/

namespace Switchboard.Lifecycle

/-- A change of owner. -/
def Event.isTransfer : Event → Bool
  | owned .. => true
  | moved .. => false

namespace Board

/-- The changes of owner that a listener of a component has heard of, oldest first. -/
def transfers (b : Board) (d : ComponentId) (i : ListenerId) : List Event :=
  (b.heard d i).filter (·.isTransfer)

/-! ## Who hears of a change of owner -/

theorem heard_log_delivered (b : Board) (c d : ComponentId) (i j : ListenerId) (label : String) (e : Event) :
    (b.log (.delivered c j label e)).heard d i = b.heard d i ++ if c = d ∧ j = i then [e] else [] := by
  rw [heard, log, List.reverse_cons, List.filterMap_append, heard]
  congr 1
  by_cases h : c = d ∧ j = i
  · simp [h]
  · simp [h]

theorem heard_log_committed (b : Board) (c : ComponentId) (source target : State) :
    (b.log (.committed c source target)).heard = b.heard := by
  funext d i
  rw [heard, log, List.reverse_cons, List.filterMap_append, heard]
  exact List.append_nil _

section

variable {announce : Board → ComponentId → Event → Board}
  (ha : ∀ b c name source target, (announce b c (.moved name source target)).transfers = b.transfers)
include ha

theorem transfers_commitWith (b : Board) (c : ComponentId) (target : State) :
    (b.commitWith announce c target).transfers = b.transfers := by
  rw [commitWith, ha]
  funext d i
  rw [transfers, heard_log_committed]
  rfl

theorem transfers_performWith (b : Board) (c : ComponentId) (deed : Deed) :
    (b.performWith announce c deed).transfers = b.transfers := by
  cases deed with
  | request d target =>
    rw [performWith, requestWith]
    split
    · rfl
    · rfl
    · exact transfers_commitWith ha b d target
  | fail d =>
    rw [performWith, failWith]
    split
    · rfl
    · exact transfers_commitWith ha b d .failed
  | unsubscribe label => rfl

theorem transfers_tellWith (b : Board) (c d : ComponentId) (i : ListenerId) (e : Event)
    (l : ListenerId × Subscription) : (tellWith announce c e b l).transfers d i =
      b.transfers d i ++ if e.isTransfer ∧ c = d ∧ l.1 = i then [e] else [] := by
  have hdeeds : ∀ (deeds : List Deed) (b : Board),
      (deeds.foldl (fun b d => b.performWith announce c d) b).transfers = b.transfers := fun deeds b =>
    List.foldlRecOn deeds _ (motive := fun b' => b'.transfers = b.transfers) rfl
      fun b' hb' d _ => (transfers_performWith ha b' c d).trans hb'
  rw [tellWith, hdeeds, transfers, heard_log_delivered, List.filter_append, transfers]
  congr 1
  by_cases h : c = d ∧ l.1 = i
  · cases ht : e.isTransfer <;> simp [h, ht]
  · simp [h]

theorem transfers_foldl_tellWith (ls : List (ListenerId × Subscription)) (b : Board) (c d : ComponentId)
    (i : ListenerId) (e : Event) : (ls.foldl (tellWith announce c e) b).transfers d i =
      b.transfers d i ++ if e.isTransfer ∧ c = d then
        ls.filterMap (fun l => if l.1 = i then some e else none) else [] := by
  induction ls generalizing b with
  | nil => simp
  | cons l ls ih =>
    rw [List.foldl_cons, ih, transfers_tellWith ha, List.append_assoc]
    congr 1
    by_cases h : e.isTransfer ∧ c = d
    · by_cases hi : l.1 = i <;> simp [h, hi]
    · have h' : ¬ (e.isTransfer ∧ c = d ∧ l.1 = i) := fun hh => h ⟨hh.1, hh.2.1⟩
      simp only [if_neg h, if_neg h', List.append_nil]

end

/-- Nobody hears of a change of owner when a component moves, whatever is answered. -/
theorem transfers_announceFrom_moved (n : Nat) (b : Board) (c : ComponentId) (name : String)
    (source target : State) : (announceFrom n b c (.moved name source target)).transfers = b.transfers := by
  induction n generalizing b c name source target with
  | zero => rfl
  | succ n ih =>
    rw [announceFrom]
    split
    · rfl
    · funext d i
      rw [transfers_foldl_tellWith ih]
      simp [Event.isTransfer]

/-- Each listener of the child hears of its change of owner once. -/
theorem transfers_announce_owned (b : Board) (c d : ComponentId) (i : ListenerId) (name : String)
    (previous current : Option String) : (b.announce c (.owned name previous current)).transfers d i =
      b.transfers d i ++ if d = c ∧ b.exhausted = false ∧ b.isSubscribed c i then
        [.owned name previous current] else [] := by
  show (announceFrom (999 + 1) b c _).transfers d i = _
  rw [announceFrom]
  cases hx : b.exhausted with
  | true => simp
  | false =>
    rw [if_neg Bool.false_ne_true, transfers_foldl_tellWith (transfers_announceFrom_moved 999)]
    congr 1
    by_cases hd : d = c
    · subst hd
      have hactive := filterMap_active
      cases hm : b.manager? d with
      | none => simp [active, isSubscribed, hm]
      | some m => simp [active, isSubscribed, hm, Event.isTransfer, hactive]
    · simp [hd, Ne.symm hd]

end Board
end Switchboard.Lifecycle

namespace Switchboard.Container

open Lifecycle (Event State Subscription)

section

variable {name : ComponentId → String} {d : Directory ComponentId} {c : ComponentId}

/-- Where children are under their own names, erasing the name of one leaves the others in order. -/
theorem Filed.erase_eq_filter (h : Filed name d) (hc : d.find? (name c) = some c) :
    d.erase (name c) = d.filter fun e => e.2 ≠ c := by
  induction d with
  | nil => rfl
  | cons e d ih =>
    obtain ⟨n, a⟩ := e
    have hd : Filed name d := h.sublist (List.sublist_cons_self ..)
    by_cases hn : n = name c
    · have ha : a = c := by simpa [Directory.find?, hn] using hc
      have hrest : ∀ e ∈ d, e.2 ≠ c := by
        rintro ⟨m, b⟩ hb rfl
        have hmem : n ∈ Directory.names d := List.mem_map.2 ⟨_, hb, (hd.named m b hb).trans hn.symm⟩
        exact (List.nodup_cons.1 h.nodup).1 hmem
      rw [Directory.erase, if_pos hn, List.filter_cons_of_neg (by simp [ha]),
        List.filter_eq_self.2 fun e he => by simpa using hrest e he]
    · have ha : a ≠ c := by
        rintro rfl
        exact hn (h.named n a List.mem_cons_self)
      rw [Directory.find?, if_neg hn] at hc
      rw [Directory.erase, if_neg hn, ih hd hc, List.filter_cons_of_pos (by simpa using ha)]

/-- At every level a child leaves the others in their order. -/
theorem Filed.without_eq_filter {p : Component} (h : Filed name p.children) :
    (p.without (name c) c).children = p.children.filter fun e => e.2 ≠ c := by
  rcases p.without_children (name c) c with hw | hw
  · exact hw
  · rw [hw]
    split
    next hc => exact h.erase_eq_filter hc
    next hc =>
      refine (List.filter_eq_self.2 fun e he => ?_).symm
      have hne : e.2 ≠ c := by
        rintro rfl
        exact hc (h.mem_values.1 (List.mem_map.2 ⟨e, he, rfl⟩))
      simpa using hne

end

namespace Store

/-- From `s` to `t` the owner of a child gave it up: the child is out of that registry and has no owner,
and each of its listeners heard of that once. All else about registries, owners and changes of owner
is the same. -/
structure GaveUp (s t : Store) (o : Owner) (c : ComponentId) : Prop where
  registries : ∀ q, (t.component q).children = if q = o.parent then
    (s.component q).children.filter (fun e => e.2 ≠ c) else (s.component q).children
  owners : ∀ d, (t.component d).owner = if d = c then none else (s.component d).owner
  alive : t.isAlive = s.isAlive
  names : t.name = s.name
  heard : ∀ d i, t.board.transfers d i = s.board.transfers d i ++
    if d = c ∧ s.board.exhausted = false ∧ s.board.isSubscribed c i then
      [.owned (s.name c) (some o.name) none] else []

variable {s t : Store} {p c : ComponentId} {o : Owner}

/-- The live owner of a child gives it up. -/
theorem detach_gaveUp (h : s.Consistent) (ho : s.owner? c = some o) : s.GaveUp (s.detach o.parent c) o c := by
  obtain ⟨hslot, halive⟩ := OwnerSlot.live_eq_some_iff.1 ho
  have hc : c < s.components.size := Owns.lt (p := o.parent) (OwnerSlot.isOwnedBy_iff.2 ⟨o, hslot, rfl⟩)
  generalize hu : s.updateComponent o.parent (·.without (s.name c) c) = u
  have howner : ∀ d, (u.component d).owner = (s.component d).owner :=
    hu ▸ updateComponent_keeps Component.owner (Component.without_keeps ..).1
  have halives : u.isAlive = s.isAlive :=
    funext (hu ▸ updateComponent_keeps Component.alive (Component.without_keeps ..).2)
  have hboard : u.board = s.board := hu ▸ rfl
  have hrelease : s.detach o.parent c = (u.setOwner c none).announceOwner c (some o.name) none := by
    have hslot' : (u.component c).owner.release o.parent = some (none, o.name) := by
      rw [howner, hslot]
      simp [OwnerSlot.release, Option.filter]
    rw [detach, hu, release_announces, hslot']
  have hmoved := (u.unmoved_setOwner c none).trans (unmoved_announceOwner _ c (some o.name) none)
  rw [hrelease]
  refine ⟨fun q => ?_, fun d => ?_, ?_, ?_, fun d i => ?_⟩
  · rw [hmoved.children, ← hu, component_updateComponent]
    by_cases hq : q = o.parent
    · subst hq
      rw [if_pos rfl]
      split
      · exact (h.filed _ halive).without_eq_filter
      next hlt =>
        rw [component_of_le (Nat.le_of_not_lt fun hh => hlt ⟨rfl, hh⟩)]
        rfl
    · rw [if_neg hq, if_neg fun hh => hq hh.1.symm]
  · show ((u.setOwner c none).component d).owner = _
    rw [setOwner, component_updateComponent, ← howner d]
    have hcu : c < u.components.size := by
      rw [← hu, size_updateComponent]
      exact hc
    by_cases hd : d = c
    · rw [if_pos ⟨hd.symm, hcu⟩, if_pos hd]
    · rw [if_neg fun hh => hd hh.1.symm, if_neg hd]
  · exact (funext hmoved.alive).trans halives
  · funext d
    rw [name_eq_of_names hmoved.names, Store.name, hboard, Store.name]
  · rw [← Lifecycle.Board.transfers_announce_owned s.board c d i (s.name c) (some o.name) none]
    show (u.board.announceOwner c (some o.name) none).transfers d i = _
    rw [hboard]
    rfl

/-- Before a claim a child is given up by whoever owns it, unless that is the claimant. -/
theorem detachElsewhere_cases (h : s.Consistent) (p c : ComponentId) :
    (∃ o, s.owner? c = some o ∧ o.parent ≠ p ∧ s.GaveUp (s.detachElsewhere p c) o c) ∨
      (∀ o, s.owner? c = some o → o.parent = p) ∧ s.detachElsewhere p c = s := by
  unfold detachElsewhere
  cases ho : s.owner? c with
  | none => exact .inr ⟨fun _ ho => absurd ho.symm (Option.some_ne_none _), rfl⟩
  | some o =>
    by_cases hp : o.parent = p
    · exact .inr ⟨fun o' ho' => Option.some.inj ho' ▸ hp, if_pos hp⟩
    · refine .inl ⟨o, rfl, hp, ?_⟩
      dsimp only
      rw [if_neg hp]
      exact detach_gaveUp h ho

theorem Consistent.name_detachElsewhere (h : s.Consistent) (p c : ComponentId) :
    (s.detachElsewhere p c).name = s.name := by
  rcases detachElsewhere_cases h p c with ⟨o, -, -, hg⟩ | ⟨-, hsame⟩
  · exact hg.names
  · rw [hsame]

/-- A child without another live owner is refused only on its way out. -/
theorem claim_refused (hfree : ∀ o, s.owner? c = some o → o.parent = p) {f : Fault}
    (hf : (s.claim p c).2 = .error f) : (s.claim p c).1 = s ∧ OwnerSlot.isDoomed (s.state c) = true ∧
      f = .ownership (s.name c) (s.name p) (.inState (s.state c)) := by
  rw [claim_announces] at *
  unfold OwnerSlot.claim at *
  by_cases hd : OwnerSlot.isDoomed (s.state c) = true
  · rw [if_pos hd] at hf ⊢
    exact ⟨rfl, hd, (Except.error.inj hf).symm⟩
  · rw [if_neg hd] at hf
    by_cases howned : (s.component c).owner.isOwnedBy p = true
    · rw [if_pos howned] at hf
      cases hf
    · rw [if_neg howned] at hf
      cases hl : (s.component c).owner.live s.isAlive with
      | none =>
        rw [hl] at hf
        cases hf
      | some o =>
        have hslot := (OwnerSlot.live_eq_some_iff.1 hl).1
        exact absurd (OwnerSlot.isOwnedBy_iff.2 ⟨o, hslot, hfree o hl⟩) howned

theorem add_refused (h : s.Consistent) {f : Fault} (hf : (s.add p c).2 = .error f) :
    (s.add p c).1 = s.detachElsewhere p c ∧ OwnerSlot.isDoomed ((s.add p c).1.state c) = true ∧
      f = .ownership (s.name c) (s.name p) (.inState ((s.add p c).1.state c)) := by
  have hfree : ∀ o, (s.detachElsewhere p c).owner? c = some o → o.parent = p := by
    rcases detachElsewhere_cases h p c with ⟨o, -, -, hg⟩ | ⟨hfree, hsame⟩
    · intro o' ho'
      rw [owner?, hg.owners, if_pos rfl] at ho'
      cases ho'
    · rw [hsame]
      exact hfree
  have hname := h.name_detachElsewhere p c
  unfold add at *
  cases hc : (s.detachElsewhere p c).claim p c with
  | mk u out =>
    rw [hc] at hf
    cases out with
    | error f' =>
      obtain rfl : f' = f := Except.error.inj hf
      obtain ⟨hu, hd, hf'⟩ := claim_refused hfree (congrArg Prod.snd hc)
      rw [hc] at hu
      obtain rfl : u = s.detachElsewhere p c := hu
      exact ⟨rfl, hd, by rw [hf', hname]⟩
    | ok b =>
      dsimp only at hf
      split at hf <;> cases hf

end Store

/-- What a refused transfer leaves behind. However the tree was built, a child is refused only on its
way out, and then either it had no other live owner and nothing at all is different, or its owner has
given it up before it was refused, and that is all that happened to registries, owners and those who
listen for changes of owner. -/
theorem refused_add_gives_up (moves : List Move) {p c : ComponentId} {f : Fault}
    (hf : ((Move.run moves).add p c).2 = .error f) :
    OwnerSlot.isDoomed (((Move.run moves).add p c).1.state c) = true ∧
    f = .ownership ((Move.run moves).name c) ((Move.run moves).name p)
      (.inState (((Move.run moves).add p c).1.state c)) ∧
    ((∃ o, (Move.run moves).owner? c = some o ∧ o.parent ≠ p ∧
        (Move.run moves).GaveUp ((Move.run moves).add p c).1 o c) ∨
      (∀ o, (Move.run moves).owner? c = some o → o.parent = p) ∧
        ((Move.run moves).add p c).1 = Move.run moves) := by
  have h := Move.run_consistent moves
  obtain ⟨ht, hd, hf⟩ := Store.add_refused h hf
  refine ⟨hd, hf, ?_⟩
  rw [ht]
  exact Store.detachElsewhere_cases h p c

/-- A context that is destroyed while a service owns it, and that another service asks for. -/
def sampleRefusal : List Move :=
  [.make "old" .service, .make "new" .service, .make "echo" (.context { request := .any, response := .any }),
    .add 0 2, .request 2 .destroying, .request 2 .destroyed]

/-- The refused transfer empties the registry of the old owner, and tells of it. -/
theorem sampleRefusal_changes : ∃ f t, (Move.run sampleRefusal).add 1 2 = (t, .error f) ∧
    (Move.run sampleRefusal).childIds 0 = [2] ∧ t.childIds 0 = [] ∧
    (Move.run sampleRefusal).owner? 2 = some ⟨"old", 0⟩ ∧ t.owner? 2 = none ∧
    t.board.heard 2 0 = (Move.run sampleRefusal).board.heard 2 0 ++ [.owned "echo" (some "old") none] :=
  ⟨_, _, rfl, rfl, rfl, rfl, rfl, rfl⟩

theorem refused_add_gives_up_sample : ∃ f, ((Move.run sampleRefusal).add 1 2).2 = .error f ∧
    (Move.run sampleRefusal).GaveUp ((Move.run sampleRefusal).add 1 2).1 ⟨"old", 0⟩ 2 := by
  obtain ⟨f, hf⟩ : ∃ f, ((Move.run sampleRefusal).add 1 2).2 = .error f := ⟨_, rfl⟩
  obtain ⟨-, -, ⟨o, ho, -, hg⟩ | ⟨hfree, -⟩⟩ := refused_add_gives_up sampleRefusal hf
  · obtain rfl := Option.some.inj ho
    exact ⟨f, hf, hg⟩
  · exact absurd (hfree ⟨"old", 0⟩ rfl) (by decide)

end Switchboard.Container
