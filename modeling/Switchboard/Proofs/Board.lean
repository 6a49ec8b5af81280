import Switchboard.Lifecycle.Board

/-!
# The names on the board

Whatever is announced, and whatever the listeners answer with, every component
keeps its name. Where they answer with nothing, nothing at all is different.
-/

namespace Switchboard.Lifecycle.Board

/-- The names of all components, in the order in which they were made. -/
def names (b : Board) : List String := b.managers.map (·.name)

theorem name_eq (b : Board) (c : ComponentId) : b.name c = (b.names[c]?).getD "" := by
  rw [name, manager?, names, List.getElem?_map]

theorem names_add (b : Board) (name : String) (subscriptions : List Subscription) :
    (b.add name subscriptions).1.names = b.names ++ [name] := by
  simp [names, add]

theorem names_update (b : Board) (c : ComponentId) {f : Manager → Manager}
    (hf : ∀ m, (f m).name = m.name) : (b.update c f).names = b.names := by
  refine List.ext_getElem? fun d => ?_
  simp only [names, update, List.getElem?_map, List.getElem?_modify]
  cases b.managers[d]? with
  | none => rfl
  | some m =>
    by_cases h : c = d
    · simp [h, hf]
    · simp [h]

theorem names_unsubscribeLabel (b : Board) (c : ComponentId) (label : String) :
    (b.unsubscribeLabel c label).names = b.names := by
  refine names_update b c fun m => ?_
  cases m.labelled? label <;> rfl

theorem names_foldl {α : Type} {f : Board → α → Board} (hf : ∀ b a, (f b a).names = b.names)
    (l : List α) (b : Board) : (l.foldl f b).names = b.names :=
  List.foldlRecOn l f (motive := fun c => c.names = b.names) rfl fun c hc a _ => (hf c a).trans hc

section

variable {announce : Board → ComponentId → Event → Board}
  (ha : ∀ b c e, (announce b c e).names = b.names)
include ha

theorem names_commitWith (b : Board) (c : ComponentId) (target : State) :
    (b.commitWith announce c target).names = b.names := by
  unfold commitWith
  rw [ha]
  exact names_update b c fun _ => rfl

theorem names_requestWith (b : Board) (c : ComponentId) (target : State) :
    (b.requestWith announce c target).1.names = b.names := by
  unfold requestWith
  cases transition (b.state c) target with
  | deny => rfl
  | ignore => rfl
  | accept => exact names_commitWith ha b c target

theorem names_failWith (b : Board) (c : ComponentId) : (b.failWith announce c).names = b.names := by
  unfold failWith
  split
  · rfl
  · exact names_commitWith ha b c .failed

theorem names_performWith (b : Board) (c : ComponentId) (d : Deed) :
    (b.performWith announce c d).names = b.names := by
  cases d with
  | request d target => exact names_requestWith ha b d target
  | fail d => exact names_failWith ha b d
  | unsubscribe label => exact names_unsubscribeLabel b c label

theorem names_tellWith (c : ComponentId) (e : Event) (b : Board)
    (listener : ListenerId × Subscription) : (tellWith announce c e b listener).names = b.names := by
  unfold tellWith
  exact names_foldl (fun b d => names_performWith ha b c d) _ _

end

/-- Announcements may nest; what the inner ones keep, the outer ones do. -/
theorem names_announceFrom (n : Nat) (b : Board) (c : ComponentId) (e : Event) :
    (announceFrom n b c e).names = b.names := by
  induction n generalizing b c e with
  | zero => rfl
  | succ n ih =>
    unfold announceFrom
    split
    · rfl
    · exact names_foldl (fun b l => names_tellWith ih c e b l) _ _

theorem names_announce (b : Board) (c : ComponentId) (e : Event) : (b.announce c e).names = b.names :=
  names_announceFrom depth b c e

theorem names_request (b : Board) (c : ComponentId) (target : State) :
    (b.request c target).1.names = b.names := names_requestWith names_announce b c target

theorem names_fail (b : Board) (c : ComponentId) : (b.fail c).names = b.names :=
  names_failWith names_announce b c

/-! ## A change to one component -/

theorem manager?_update (b : Board) (c d : ComponentId) (f : Manager → Manager) :
    (b.update c f).manager? d = if c = d then (b.manager? d).map f else b.manager? d := by
  rw [manager?, update, List.getElem?_modify, manager?]
  split <;> simp

theorem isSome_manager?_update (b : Board) (c d : ComponentId) (f : Manager → Manager) :
    ((b.update c f).manager? d).isSome = (b.manager? d).isSome := by
  rw [manager?_update]
  split
  · exact Option.isSome_map
  · rfl

theorem state_update {f : Manager → Manager} (hf : ∀ m, (f m).state = m.state) (b : Board)
    (c d : ComponentId) : (b.update c f).state d = b.state d := by
  rw [state, manager?_update, state]
  split
  · cases b.manager? d with
    | none => rfl
    | some m => exact hf m
  · rfl

/-! ## Listeners that only listen -/

/-- Where no listener answers, an announcement is put on record and nothing else. -/
theorem managers_announceFrom {n : Nat} {b : Board} {c : ComponentId} {e : Event}
    (h : ∀ l ∈ b.active c, l.2.respond e = []) : (announceFrom n b c e).managers = b.managers := by
  cases n with
  | zero => rfl
  | succ n =>
    unfold announceFrom
    split
    · rfl
    · refine List.foldlRecOn _ _ (motive := fun d : Board => d.managers = b.managers) rfl
        fun d hd l hl => ?_
      rw [tellWith, h l hl]
      exact hd

theorem respond_quiet (label : String) (e : Event) : (Subscription.quiet label).respond e = [] := by
  simp [Subscription.quiet, Subscription.on]

end Switchboard.Lifecycle.Board
