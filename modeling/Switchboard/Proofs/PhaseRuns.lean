import Switchboard.Lifecycle.Phases
import Switchboard.Proofs.Runs

/-!
# Runs of phases

A phase changes the board and runs its hook. What neither of them breaks, a phase
does not break either; and what the hook establishes holds at the end of a phase
that got as far as its hook.
-/

namespace Switchboard.Lifecycle

open Activity

variable {σ ω α : Type} [HasBoard σ] {rely G : σ → σ → Prop} {c : ComponentId} {p : Phase}

theorem guarantees_onBoard (hG : ∀ s b, G s (HasBoard.setBoard s b)) (f : Board → Board × α) :
    Guarantees rely G (onBoard f : Activity σ ω α) :=
  guarantees_act fun s => hG s _

theorem guarantees_runSingle (hG : ∀ s b, G s (HasBoard.setBoard s b)) {hook : Hook σ ω}
    (hhook : Guarantees rely G hook) : Guarantees rely G (runSingle hook c p) := by
  refine (guarantees_onBoard hG _).bind fun begun => ?_
  match begun with
  | .error f => exact guarantees_pure _
  | .ok false => exact guarantees_pure _
  | .ok true =>
    refine hhook.bind fun outcome => ?_
    cases outcome with
    | error cause =>
      rw [conclude]
      exact guarantees_onBoard hG _
    | ok =>
      rw [conclude]
      exact guarantees_onBoard hG _

theorem guarantees_runPhase (hG : ∀ s b, G s (HasBoard.setBoard s b)) {hook : Phase → Hook σ ω}
    (hhook : ∀ q, Guarantees rely G (hook q)) : Guarantees rely G (runPhase hook c p) := by
  refine (guarantees_onBoard hG _).bind fun state => ?_
  split
  · refine (guarantees_runSingle hG (hhook _)).bind fun outcome => ?_
    cases outcome with
    | error f => exact guarantees_pure _
    | ok => exact guarantees_runSingle hG (hhook p)
  · exact guarantees_runSingle hG (hhook p)

/-- Of the hooks, a phase runs its own and, where it has to, the one that initializes. -/
theorem runPhase_congr {hook hook' : Phase → Hook σ ω} (hinit : hook .init = hook' .init)
    (hp : hook p = hook' p) : runPhase hook c p = runPhase hook' c p := by
  rw [runPhase, hinit, hp, runPhase]

section

variable {I : σ → Prop} {J : Phase → σ → Prop} {s : σ}

theorem runSingle_ends {J : σ → Prop} (hI : ∀ s b, I s → I (HasBoard.setBoard s b))
    (hJ : ∀ s b, J s → J (HasBoard.setBoard s b)) (hJI : ∀ s, J s → I s) {hook : Hook σ ω}
    (hhook : ∀ s, I s → Ensures rely hook (fun _ _ t => J t) s) (h : I s) :
    Ensures rely (runSingle hook c p) (fun _ _ t =>
      I t ∧ (((HasBoard.board s).begin c p).2 = .ok true → J t)) s := by
  simp only [runSingle, onBoard, ensures_bind, ensures_act]
  have hb := hI s ((HasBoard.board s).begin c p).1 h
  split
  · rename_i f hf
    exact ensures_pure.2 ⟨hb, fun hr => by rw [hf] at hr; cases hr⟩
  · rename_i hf
    exact ensures_pure.2 ⟨hb, fun hr => by rw [hf] at hr; cases hr⟩
  · refine ensures_bind.2 ((hhook _ hb).mono fun _ outcome t ht => ?_)
    cases outcome with
    | error cause =>
      have ht' := hJ t ((HasBoard.board t).fail c) ht
      exact ensures_act.2 ⟨hJI _ ht', fun _ => ht'⟩
    | ok =>
      have ht' := hJ t ((HasBoard.board t).request c p.settled).1 ht
      exact ensures_act.2 ⟨hJI _ ht', fun _ => ht'⟩

/-- What every hook keeps, a phase keeps; what its own hook establishes stands after it, unless
the hook was not reached. A start may run two hooks, and is left aside in this. -/
theorem runPhase_ends (hI : ∀ s b, I s → I (HasBoard.setBoard s b))
    (hJ : ∀ q s b, J q s → J q (HasBoard.setBoard s b)) (hJI : ∀ q s, J q s → I s)
    (hs : ∀ s : σ, HasBoard.setBoard s (HasBoard.board s) = s) {hook : Phase → Hook σ ω}
    (hhook : ∀ q s, I s → Ensures rely (hook q) (fun _ _ t => J q t) s) (h : I s) :
    Ensures rely (runPhase hook c p) (fun _ _ t =>
      I t ∧ (p ≠ .start → ((HasBoard.board s).begin c p).2 = .ok true → J p t)) s := by
  simp only [runPhase, onBoard, ensures_bind, ensures_act, hs]
  split
  · rename_i hn
    have hp : p = .start := by
      unfold needsInit at hn
      simp only [Bool.and_eq_true, decide_eq_true_eq] at hn
      exact hn.1
    refine ensures_bind.2 ((runSingle_ends hI (hJ .init) (hJI .init) (hhook .init) h).mono
      fun _ out u hu => ?_)
    cases out with
    | error f => exact ensures_pure.2 ⟨hu.1, fun hne => absurd hp hne⟩
    | ok =>
      refine (runSingle_ends hI (hJ p) (hJI p) (hhook p) hu.1).mono fun _ _ t ht => ?_
      exact ⟨ht.1, fun hne => absurd hp hne⟩
  · refine (runSingle_ends hI (hJ p) (hJI p) (hhook p) h).mono fun _ _ t ht => ?_
    exact ⟨ht.1, fun _ => ht.2⟩

end

end Switchboard.Lifecycle
