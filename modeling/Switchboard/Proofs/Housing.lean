import Switchboard.Proofs.Cascades
import Switchboard.Proofs.ContextLedger

/-!
# The ledger of a tree

The shared instances of all contexts of a tree. `Housed shape cs s` says that their
desks are stocked and that a context that is destroyed has an empty one. Every phase
within the tree keeps it housed, so where all contexts are destroyed no slot is filled.
-/

namespace Switchboard.Container

open Activity
open Lifecycle (Board Phase State runPhase runSingle conclude onBoard)
open Lifecycle.Board (along along_of_mem along_of_not_mem)

/-- What is below a component of the set is in it too, one level down. -/
def Layered (shape : ComponentId → Nat × List ComponentId) (cs : List ComponentId) : Prop :=
  ∀ c ∈ cs, ∀ d ∈ (shape c).2, d ∈ cs ∧ (shape d).1 + 1 = (shape c).1

/-- The desks of a tree are stocked, those of the contexts that are destroyed are empty, and the
components are there and observed. -/
structure Store.Housed (shape : ComponentId → Nat × List ComponentId) (cs : List ComponentId) (s : Store) :
    Prop where
  shape : s.shape = shape
  placid : s.board.Placid cs
  stocked : s.Stocked cs
  cleared : ∀ d ∈ cs, s.state d = .destroyed → ∀ r, ¬ s.OnDesk d r

section

variable {s t u : Store} {c d : ComponentId} {cs : List ComponentId} {p : Phase} {n : Nat}
  {shape : ComponentId → Nat × List ComponentId}

theorem desk_of_height (h : s.height c = 0) : ∃ desk, s.desk? c = some desk := by
  have hk : (s.component c).kind.height = 0 := h
  cases hc : (s.component c).kind with
  | context desk => exact ⟨desk, by rw [Store.desk?, Component.desk?, hc]⟩
  | _ =>
    rw [hc] at hk
    cases hk

theorem Store.OnDesk.height {r : RegistrationId} (h : s.OnDesk c r) : s.height c = 0 := by
  obtain ⟨desk, hd, -⟩ := h
  exact height_of_desk hd

/-- A component may move to the destroyed state once its desk is empty. -/
theorem Store.Housed.commit (h : s.Housed shape cs) (hc : c ∈ cs) {target : State}
    (hclear : target = .destroyed → ∀ r, ¬ s.OnDesk c r) :
    Store.Housed shape cs { s with board := s.board.commitWith .announce c target } := by
  have hf := Lifecycle.Board.follows_commit h.placid.heeded (h.placid.observed c hc) target
  refine ⟨h.shape, h.placid.follows hf, h.stocked.beyond ⟨_, s.gates, rfl⟩, fun d hd hs r hr => ?_⟩
  have hstate : _ = (along [c] [target] d).getLastD (s.state d) := (hf.walked d).state (h.placid.known d hd)
  by_cases hdc : d = c
  · rw [hdc, Lifecycle.Board.along_self] at hstate
    exact hclear (hstate.symm.trans (hdc ▸ hs)) r (hdc ▸ hr)
  · rw [along_of_not_mem (by simpa using hdc)] at hstate
    exact h.cleared d hd (hstate.symm.trans hs) r hr

/-- What keeps the tree housed, and empties the desk where it is destroyed, does so as the hook of a
phase. -/
theorem runSingle_housed {hook : PhaseHook} (h : s.Housed shape cs) (hc : c ∈ cs)
    (hhook : ∀ u : Store, u.Housed shape cs → Ensures Eq hook (fun _ _ v =>
      v.Housed shape cs ∧ (p = .destroy → ∀ r, ¬ v.OnDesk c r)) u) :
    Ensures Eq (runSingle hook c p) (fun _ _ t => t.Housed shape cs) s := by
  by_cases he : p.Enters (s.state c)
  · have htransient : p.transient ≠ .destroyed := by cases p <;> decide
    simp only [runSingle, onBoard, ensures_bind, ensures_act, Lifecycle.HasBoard.board,
      Lifecycle.HasBoard.setBoard, Lifecycle.Board.begin_of_enters he]
    refine (hhook _ (h.commit hc fun hd => absurd hd htransient)).mono ?_
    rintro - o v ⟨hv, hclear⟩
    cases o with
    | error cause =>
      simp only [conclude, onBoard, ensures_act, Lifecycle.HasBoard.board, Lifecycle.HasBoard.setBoard,
        Lifecycle.Board.fail, Lifecycle.Board.failWith]
      split
      · exact hv
      · exact hv.commit hc fun hs => by cases hs
    | ok =>
      simp only [conclude, onBoard, ensures_act, Lifecycle.HasBoard.board, Lifecycle.HasBoard.setBoard,
        Lifecycle.Board.request, Lifecycle.Board.requestWith]
      split
      · exact hv
      · exact hv
      · exact hv.commit hc fun hd => hclear (by cases p <;> first | rfl | cases hd)
  · exact (runSingle_stays he).mono fun _ _ t ht => ht.2 ▸ h

/-- What every phase of a component keeps, a start that initializes first keeps too. -/
theorem runPhase_keeps {rely : Store → Store → Prop} {I : Store → Prop} {hook : Phase → PhaseHook}
    (h : I s) (hrun : ∀ q u, I u → Ensures rely (runSingle (hook q) c q) (fun _ _ t => I t) u) :
    Ensures rely (runPhase hook c p) (fun _ _ t => I t) s := by
  refine ensures_bind.2 (ensures_act.2 ?_)
  by_cases hn : Lifecycle.needsInit p (s.state c) = true
  · rw [if_pos (by exact hn)]
    refine ensures_bind.2 ((hrun .init s h).mono fun _ out u hu => ?_)
    cases out with
    | error f => exact ensures_pure.2 hu
    | ok => exact hrun p u hu
  · rw [if_neg (by exact hn)]
    exact hrun p s h

theorem cascade_keeps {rely : Store → Store → Prop} {I : Store → Prop} {ds : List ComponentId}
    {run : ComponentId → Work (Except Lifecycle.Fault Unit)} (h : I s)
    (hrun : ∀ d ∈ ds, ∀ u, I u → Ensures rely (run d) (fun _ _ t => I t) u) :
    Ensures rely (cascade run ds) (fun _ _ t => I t) s := by
  induction ds generalizing s with
  | nil => exact ensures_pure.2 h
  | cons d ds ih =>
    obtain ⟨hd, hds⟩ := List.forall_mem_cons.1 hrun
    refine ensures_bind.2 ((hd s h).mono fun _ out u hu => ?_)
    cases out with
    | error f => exact ensures_pure.2 hu
    | ok => exact ih hu hds

theorem contextHook_housed (h : s.Housed shape cs) (hc : c ∈ cs) (hn : (shape c).1 = 0) (p : Phase) :
    Ensures Eq (contextHook c p) (fun _ _ t =>
      t.Housed shape cs ∧ (p = .destroy → ∀ r, ¬ t.OnDesk c r)) s := by
  obtain ⟨desk, hdesk⟩ := desk_of_height (s := s) (c := c) (by rw [Store.height, h.shape, hn])
  have haloof := (contextHook_aloof c p s).alone Store.Aloof.refl
  have htends := (contextHook_tends h.stocked hdesk hc p).alone fun s => ⟨s.board, s.gates, rfl⟩
  refine (haloof.and htends).mono ?_
  rintro - - t ⟨ha, ht⟩
  refine ⟨⟨ha.shape.trans h.shape, ?_, ht.stocked, ?_⟩, ht.cleared⟩
  · rw [ha.board]
    exact h.placid
  · intro d hd hs r hr
    rw [Store.state, ha.board] at hs
    exact h.cleared d hd hs r (ht.shrunk d r hr)

/-- A phase within the tree keeps it housed. -/
theorem hookAt_housed (hl : Layered shape cs) (h : s.Housed shape cs) (hc : c ∈ cs) (hn : (shape c).1 = n)
    (p : Phase) : Ensures Eq (hookAt n c p) (fun _ _ t =>
      t.Housed shape cs ∧ (p = .destroy → ∀ r, ¬ t.OnDesk c r)) s := by
  induction n generalizing s c p with
  | zero => exact contextHook_housed h hc hn p
  | succ n ih =>
    have hrun : ∀ d ∈ s.childIds c, ∀ u : Store, u.Housed shape cs →
        Ensures Eq (runPhase (hookAt n d) d p) (fun _ _ t => t.Housed shape cs) u := by
      intro d hd u hu
      have hd' : d ∈ (shape c).2 := h.shape ▸ hd
      obtain ⟨hm, hlevel⟩ := hl c hc d hd'
      have hdn : (shape d).1 = n := Nat.succ.inj (hlevel.trans hn)
      exact runPhase_keeps hu fun q v hv => runSingle_housed hv hm fun w hw => ih hw hm hdn q
    refine ensures_bind.2 (ensures_get.2 ((cascade_keeps h hrun).mono fun _ _ t ht => ⟨ht, fun _ r hr => ?_⟩))
    have hz := hr.height
    rw [Store.height, ht.shape, hn] at hz
    cases hz

theorem phase_housed (hl : Layered shape cs) (h : s.Housed shape cs) (hc : c ∈ cs) (p : Phase) :
    Ensures Eq (phase c p) (fun _ _ t => t.Housed shape cs) s := by
  refine ensures_phase (runPhase_keeps h fun q u hu => runSingle_housed hu hc fun v hv => ?_)
  exact hookAt_housed hl hv hc (by rw [← h.shape]; rfl) q

/-- Where all are destroyed, every shared instance that was initialized is destroyed. -/
theorem Store.Housed.dead (h : s.Housed shape cs) (hs : ∀ d ∈ cs, s.state d = .destroyed) {i : InstanceId}
    (hi : s.IsStateless i) (hm : 0 < s.marks i .initialized) : s.Dead i := by
  have hvacant : s.Vacant := h.stocked.ledger.vacant fun r hr => by
    obtain ⟨d, hd, hr⟩ := hr
    exact h.cleared d hd (hs d hd) r hr
  have hslots : s.slots i = 0 := Store.slots_eq_zero fun r hr => by
    rw [hvacant r] at hr
    cases hr
  obtain ⟨ho, hf, -, -, -, -⟩ := h.stocked.ledger.balanced i hi
  simp at ho hf
  exact ⟨by omega, hslots⟩

end

end Switchboard.Container
