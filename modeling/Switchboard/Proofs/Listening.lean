import Switchboard.Proofs.Delivery

/-!
# Who listens on

Moves and announcements, however they nest, come to a few small changes of the
board: a component is moved, a listener is told, listeners are dismissed, a
cascade is cut short. `Evolves` is what can be made of these; so an announcement
that was cut short remains so, and a listener that is subscribed at the end was
subscribed all the while.
-/

namespace Switchboard.Lifecycle.Board

/-- What a board may become by moves and announcements. -/
inductive Evolves : Board → Board → Prop where
  | refl (b : Board) : Evolves b b
  | trans {b t u : Board} : Evolves b t → Evolves t u → Evolves b u
  | moved (b : Board) (c : ComponentId) (target : State) : Evolves b (b.moved c target)
  | told (b : Board) (c : ComponentId) (i : ListenerId) (label : String) (e : Event) :
      Evolves b (b.log (.delivered c i label e))
  | dismissed (b : Board) (c : ComponentId) (label : String) : Evolves b (b.unsubscribeLabel c label)
  | exhausted (b : Board) : Evolves b { b with exhausted := true }

theorem evolves_foldl {α : Type} {f : Board → α → Board} (hf : ∀ b a, Evolves b (f b a)) (l : List α)
    (b : Board) : Evolves b (l.foldl f b) :=
  List.foldlRecOn l f (motive := fun t => Evolves b t) (.refl b) fun t ht a _ => ht.trans (hf t a)

section

variable {announce : Board → ComponentId → Event → Board}
  (ha : ∀ b c e, Evolves b (announce b c e))
include ha

theorem evolves_commitWith (b : Board) (c : ComponentId) (target : State) :
    Evolves b (b.commitWith announce c target) :=
  (Evolves.moved b c target).trans (ha _ _ _)

theorem evolves_requestWith (b : Board) (c : ComponentId) (target : State) :
    Evolves b (b.requestWith announce c target).1 := by
  rw [requestWith]
  cases transition (b.state c) target with
  | deny => exact .refl b
  | ignore => exact .refl b
  | accept => exact evolves_commitWith ha b c target

theorem evolves_failWith (b : Board) (c : ComponentId) : Evolves b (b.failWith announce c) := by
  rw [failWith]
  split
  · exact .refl b
  · exact evolves_commitWith ha b c .failed

theorem evolves_performWith (b : Board) (c : ComponentId) (d : Deed) :
    Evolves b (b.performWith announce c d) := by
  cases d with
  | request d target => exact evolves_requestWith ha b d target
  | fail d => exact evolves_failWith ha b d
  | unsubscribe label => exact .dismissed b c label

theorem evolves_tellWith (c : ComponentId) (e : Event) (b : Board) (l : ListenerId × Subscription) :
    Evolves b (tellWith announce c e b l) :=
  (Evolves.told b c l.1 l.2.label e).trans (evolves_foldl (fun b d => evolves_performWith ha b c d) _ _)

end

theorem evolves_announceFrom (n : Nat) (b : Board) (c : ComponentId) (e : Event) :
    Evolves b (announceFrom n b c e) := by
  induction n generalizing b c e with
  | zero => exact .exhausted b
  | succ n ih =>
    rw [announceFrom]
    split
    · exact .refl b
    · exact evolves_foldl (evolves_tellWith ih c e) _ b

theorem evolves_announce (b : Board) (c : ComponentId) (e : Event) : Evolves b (b.announce c e) :=
  evolves_announceFrom depth b c e

theorem evolves_request (b : Board) (c : ComponentId) (target : State) : Evolves b (b.request c target).1 :=
  evolves_requestWith evolves_announce b c target

theorem evolves_fail (b : Board) (c : ComponentId) : Evolves b (b.fail c) :=
  evolves_failWith evolves_announce b c

/-- A phase is entered by a request, or the board stays as it is. -/
theorem begin_cases (b : Board) (c : ComponentId) (p : Phase) :
    (b.begin c p).1 = b ∨ (b.begin c p).1 = (b.request c p.transient).1 := by
  rw [begin]
  split
  · exact .inl rfl
  · rcases h : b.request c p.transient with ⟨t, _ | _ | _ | _⟩ <;> exact .inr rfl

theorem evolves_begin (b : Board) (c : ComponentId) (p : Phase) : Evolves b (b.begin c p).1 := by
  rcases begin_cases b c p with h | h
  · rw [h]
    exact .refl b
  · rw [h]
    exact evolves_request b c p.transient

/-! ## What a board keeps -/

/-- Components and their names are the same, and nothing that had come to an end goes on. -/
structure Later (b t : Board) : Prop where
  names : t.names = b.names
  heeded : t.exhausted = false → b.exhausted = false
  subscribed : ∀ c i, t.isSubscribed c i = true → b.isSubscribed c i = true

theorem Later.refl (b : Board) : Later b b := ⟨rfl, id, fun _ _ => id⟩

theorem Later.trans {b t u : Board} (h : Later b t) (k : Later t u) : Later b u :=
  ⟨k.names.trans h.names, h.heeded ∘ k.heeded, fun c i => h.subscribed c i ∘ k.subscribed c i⟩

theorem later_update (b : Board) (c : ComponentId) {f : Manager → Manager} (hn : ∀ m, (f m).name = m.name)
    (hs : ∀ m i, (f m).isSubscribed i = true → m.isSubscribed i = true) : Later b (b.update c f) where
  names := names_update b c hn
  heeded := id
  subscribed d i := by
    rw [isSubscribed, manager?_update, isSubscribed]
    split
    · cases b.manager? d with
      | none => exact id
      | some m => exact hs m i
    · exact id

theorem isSubscribed_of_unsubscribe (m : Manager) (j : ListenerId) {i : ListenerId}
    (h : (m.unsubscribe j).isSubscribed i = true) : m.isSubscribed i = true := by
  simp only [Manager.isSubscribed, Manager.unsubscribe, List.getElem?_modify] at h ⊢
  cases hs : m.subscriptions[i]? with
  | none => rw [hs] at h; cases h
  | some s =>
    rw [hs] at h
    by_cases hj : j = i
    · simp [hj] at h
    · simpa [hj] using h

theorem later_unsubscribeLabel (b : Board) (c : ComponentId) (label : String) :
    Later b (b.unsubscribeLabel c label) := by
  refine later_update b c (fun m => ?_) fun m i h => ?_
  · cases m.labelled? label <;> rfl
  · cases hl : m.labelled? label with
    | none => rwa [hl] at h
    | some j =>
      rw [hl] at h
      exact isSubscribed_of_unsubscribe m j h

theorem Evolves.later {b t : Board} (h : Evolves b t) : Later b t := by
  induction h with
  | refl b => exact .refl b
  | trans _ _ ih ih' => exact ih.trans ih'
  | moved b c target =>
    have h := later_update b c (f := fun m => { m with state := target }) (fun _ => rfl) fun _ _ => id
    exact ⟨h.names, h.heeded, h.subscribed⟩
  | told b c i label e => exact ⟨rfl, id, fun _ _ => id⟩
  | dismissed b c label => exact later_unsubscribeLabel b c label
  | exhausted b => exact ⟨rfl, fun h => (nomatch h), fun _ _ => id⟩

end Switchboard.Lifecycle.Board
