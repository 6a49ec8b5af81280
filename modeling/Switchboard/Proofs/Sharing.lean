import Switchboard.Container.Cascade
import Switchboard.Proofs.Ledger

/-!
# Shared instances of a context

What the operations of a context do to the ledger when each runs to its end
before the next begins. Between operations nobody holds anything, so every
initialized instance is either in the slot of one registration of the context or
destroyed once; whatever is processed in between is held for a request, and a
stop leaves no slot filled.
-/

namespace Switchboard.Container

open Activity
open Lifecycle (Board Phase)

/-- What goes on beside the work of a context: lifecycles move and gates open. -/
def Beyond (s t : Store) : Prop := ∃ board gates, t = { s with board, gates }

namespace Store

variable {s t u : Store}

theorem Untouched.beyond (h : Beyond s t) : Untouched s t := by
  obtain ⟨board, gates, rfl⟩ := h
  exact untouched_of_eq rfl rfl rfl rfl

theorem Steady.beyond (h : Beyond s t) : Steady s t := by
  obtain ⟨board, gates, rfl⟩ := h
  exact steady_of_eq rfl rfl rfl

theorem Steady.policy (h : Steady s t) (r : RegistrationId) :
    (t.registration r).policy = (s.registration r).policy := by
  have hp := h.policies r
  unfold registration Roster.getD
  cases hs : s.registrations.get? r <;> cases ht : t.registrations.get? r <;> simp_all

theorem Steady.cls (h : Steady s t) (r : RegistrationId) :
    (t.registration r).cls = (s.registration r).cls :=
  congrArg (·.2.1) (h.policy r)

theorem Steady.instancing (h : Steady s t) (r : RegistrationId) :
    (t.registration r).instancing = (s.registration r).instancing :=
  congrArg (·.2.2) (h.policy r)

theorem Steady.size (h : Steady s t) : t.registrations.size = s.registrations.size := by
  have hiff : ∀ r, r < t.registrations.size ↔ r < s.registrations.size := by
    intro r
    have hp := congrArg Option.isSome (h.policies r)
    simp only [Option.isSome_map] at hp
    rw [← Roster.isSome_get?, ← Roster.isSome_get?, hp]
  refine Nat.le_antisymm ?_ ?_
  · exact Nat.le_of_not_lt fun hlt => Nat.lt_irrefl _ ((hiff _).1 hlt)
  · exact Nat.le_of_not_lt fun hlt => Nat.lt_irrefl _ ((hiff _).2 hlt)

/-- Registrations are only added, and keep their policies. -/
structure Enrols (s t : Store) : Prop where
  classes : t.classes = s.classes
  policies : ∀ r, r < s.registrations.size →
    r < t.registrations.size ∧ (t.registration r).policy = (s.registration r).policy

theorem Enrols.trans (h : Enrols s t) (k : Enrols t u) : Enrols s u := by
  refine ⟨k.classes.trans h.classes, fun r hr => ?_⟩
  obtain ⟨ht, hp⟩ := h.policies r hr
  obtain ⟨hu, hq⟩ := k.policies r ht
  exact ⟨hu, hq.trans hp⟩

theorem Enrols.registered (h : Enrols s t) (hr : r < s.registrations.size) :
    r < t.registrations.size := (h.policies r hr).1

theorem Enrols.cls (h : Enrols s t) (hr : r < s.registrations.size) :
    (t.registration r).cls = (s.registration r).cls := congrArg (·.2.1) (h.policies r hr).2

theorem Enrols.instancing (h : Enrols s t) (hr : r < s.registrations.size) :
    (t.registration r).instancing = (s.registration r).instancing :=
  congrArg (·.2.2) (h.policies r hr).2

theorem Enrols.classOf (h : Enrols s t) (c : ClassId) : t.classOf c = s.classOf c := by
  rw [Store.classOf, h.classes, Store.classOf]

theorem Steady.enrols (h : Steady s t) : Enrols s t :=
  ⟨h.classes, fun r hr => ⟨h.size ▸ hr, h.policy r⟩⟩

end Store

section

variable {P : RegistrationId → Prop} {hands : List Hand} {s : Store} {r : RegistrationId}
  {i : InstanceId}

/-! ## Stages -/

/-- Initializing a raw instance, among others who leave the ledger untouched. -/
theorem setUp_spec {rely : Store → Store → Prop} (hrely : ∀ s t, rely s t → s.Untouched t)
    (h : s.Ledger P (.raw i :: hands)) (r : RegistrationId) :
    Ensures rely (setUp r i) (fun _ out t =>
      (∀ r', (t.registration r').shared = (s.registration r').shared) ∧
      match out with
      | .ok () => t.Ledger P (.sole i :: hands)
      | .error _ => t.Ledger P (.spent i :: hands)) s := by
  simp only [setUp, runInit, ensures_bind, ensures_act, ensures_yield]
  intro u hu
  have hu' := (s.untouched_initializing r i _ _).trans (hrely _ _ hu)
  refine ⟨hu'.shared, ?_⟩
  split
  · rename_i heq
    rw [heq]
    exact (h.congr hu').initialized
  · rename_i heq
    rw [heq]
    exact (h.congr hu').failed

/-- Nothing that an instance of another class goes through concerns the ledger. -/
theorem setUp_own {rely : Store → Store → Prop} (hrely : ∀ s t, rely s t → s.Untouched t)
    (hi : s.IsOwn i) (r : RegistrationId) :
    Ensures rely (setUp r i) (fun _ _ t => s.Untouched t) s := by
  simp only [setUp, runInit, ensures_bind, ensures_act, ensures_yield]
  intro u hu
  have hu' := (s.untouched_initializing r i _ _).trans (hrely _ _ hu)
  cases (u.classOf _).init _ _ with
  | ok => exact hu'.trans (Store.untouched_note_own (hi.congr hu') rfl)
  | error cause => exact hu'.trans (Store.untouched_note_own (hi.congr hu') rfl)

theorem Quiet.steady {α : Type} {x : Work α} (h : Quiet Beyond x) (s : Store) :
    Ensures Beyond x (fun _ _ t => s.Steady t) s :=
  (h.mono fun _ _ hq => hq.2).frame Store.Steady.refl Store.Steady.trans
    (fun _ _ => Store.Steady.beyond) s

/-- A registration of a class whose instances are shared, with a place in the ledger. -/
structure Store.Sharing (P : RegistrationId → Prop) (r : RegistrationId) (s : Store) : Prop where
  registered : r < s.registrations.size
  accounted : P r
  shares : (s.classOf (s.registration r).cls).instancing.sharesInstance = true

theorem Store.Sharing.enrols {t : Store} (h : s.Sharing P r) (he : s.Enrols t) : t.Sharing P r := by
  refine ⟨he.registered h.registered, h.accounted, ?_⟩
  rw [he.cls h.registered, he.classOf]
  exact h.shares

theorem Store.Sharing.steady {t : Store} (h : s.Sharing P r) (hs : s.Steady t) : t.Sharing P r :=
  h.enrols hs.enrols

theorem buildShared_spec (h : s.Ledger P []) (hr : s.Sharing P r)
    (he : (s.registration r).shared = none) :
    Ensures Beyond (buildShared r) (fun _ out t =>
      match out with
      | .ok i => t.Ledger P [.lent i]
      | .error _ => t.Ledger P []) s := by
  simp only [buildShared, ensures_bind, ensures_act]
  have hst := (s.quietly_instantiate r).2
  have hsh := s.shared_instantiate r r
  rcases h.instantiate hr.shares with ⟨f, hf, hl⟩ | ⟨i, hi, hl⟩
  · rw [hf]
    simp only [ensures_bind, ensures_modify, ensures_pure]
    exact hl.congr (Store.untouched_setLocked _ r false)
  · rw [hi]
    simp only [ensures_bind]
    refine ((setUp_spec (fun _ _ => .beyond) hl r).and ((quiet_setUp r i).steady _)).mono
      fun _ out t ht => ?_
    obtain ⟨⟨hsame, hout⟩, hst'⟩ := ht
    cases out with
    | ok =>
      simp only [place, ensures_bind, ensures_modify, ensures_pure]
      have hr' := (hr.steady hst).steady hst'
      exact hout.publish hr'.registered hr'.accounted (by rw [hsame, hsh, he])
    | error cause =>
      simp only [place, ensures_act]
      exact hout.giveUp r _

theorem shareOrBuild_spec (h : s.Ledger P []) (hr : s.Sharing P r) :
    Ensures Beyond (shareOrBuild r) (fun _ out t =>
      match out with
      | .ok i => t.Ledger P [.lent i]
      | .error _ => t.Ledger P []) s := by
  simp only [shareOrBuild, ensures_bind, ensures_waitUntil, ensures_act]
  intro u hu _
  have hlu := h.congr (Store.Untouched.beyond hu)
  rcases hlu.share r with ⟨i, hi, -, hl⟩ | ⟨he, hn⟩
  · rw [hi]
    exact ensures_pure.2 hl
  · rw [hn]
    simp only [ensures_bind, ensures_modify]
    refine (buildShared_spec (hlu.congr (u.untouched_setLocked r true))
      ((hr.steady (.beyond hu)).steady (u.quietly_setLocked r true).2) ?_).mono fun _ _ _ h => h
    rw [(u.untouched_setLocked r true).shared, he]

theorem obtainShared_spec (h : s.Ledger P []) (hr : s.Sharing P r) :
    Ensures Beyond (obtainShared r) (fun _ out t =>
      match out with
      | .ok i => t.Ledger P [.lent i]
      | .error _ => t.Ledger P []) s := by
  simp only [obtainShared, ensures_bind, ensures_waitUntil, ensures_act]
  intro u hu _
  have hlu := h.congr (Store.Untouched.beyond hu)
  rcases hlu.share r with ⟨i, hi, -, hl⟩ | ⟨-, hn⟩
  · rw [hi]
    exact ensures_pure.2 hl
  · rw [hn]
    exact (shareOrBuild_spec hlu (hr.steady (.beyond hu))).mono fun _ _ _ h => h

/-- A registration with the policy of its class and a place in the ledger. -/
structure Store.Admitted (P : RegistrationId → Prop) (r : RegistrationId) (s : Store) : Prop where
  registered : r < s.registrations.size
  accounted : P r
  policy : (s.registration r).instancing = (s.classOf (s.registration r).cls).instancing

theorem Store.Admitted.enrols {t : Store} (h : s.Admitted P r) (he : s.Enrols t) :
    t.Admitted P r := by
  refine ⟨he.registered h.registered, h.accounted, ?_⟩
  rw [he.instancing h.registered, he.cls h.registered, he.classOf]
  exact h.policy

theorem Store.Admitted.steady {t : Store} (h : s.Admitted P r) (hs : s.Steady t) :
    t.Admitted P r := h.enrols hs.enrols

/-- What a request obtains: the shared instance, or one that is nobody else's. -/
def Obtained (P : RegistrationId → Prop) (shares : Bool) (t : Store) : Except Fault InstanceId → Prop
  | .error _ => t.Ledger P []
  | .ok i =>
    if shares then t.Ledger P [.lent i]
    else t.Ledger P [] ∧ t.IsOwn i

theorem createHandler_spec (h : s.Ledger P []) (hr : s.Admitted P r) :
    Ensures Beyond (createHandler r) (fun _ out t =>
      Obtained P (s.registration r).instancing.sharesInstance t out) s := by
  simp only [createHandler, ensures_bind, ensures_act]
  have hl := h.congr (s.untouched_activate r)
  have hst : s.Steady _ := (Store.quietly_updateRegistration (s := s) (r := r)
    (f := fun g => { g with active := g.active + 1 }) rfl).2
  cases hb : (s.registration r).instancing.sharesInstance with
  | true =>
    have hsh : s.Sharing P r := ⟨hr.registered, hr.accounted, by rw [← hr.policy]; exact hb⟩
    refine (obtainShared_spec hl (hsh.steady hst)).mono fun _ out t ho => ?_
    cases out with
    | ok i => exact ensures_pure.2 ho
    | error f =>
      simp only [deliver, ensures_bind, ensures_modify, ensures_pure]
      exact Store.Ledger.congr ho (t.untouched_releaseSlot r)
  | false =>
    have hc : ((s.updateRegistration r fun g => { g with active := g.active + 1 }).classOf
        ((s.updateRegistration r fun g => { g with active := g.active + 1 }).registration r).cls
          ).instancing.sharesInstance = false := by
      rw [hst.cls, Store.classOf, hst.classes]
      exact hr.policy ▸ hb
    obtain ⟨hl', hown⟩ := hl.instantiate_own hc
    simp only [Bool.false_eq_true, ↓reduceIte, ensures_act]
    cases hout : (Store.instantiate _ r).2 with
    | ok i => exact ensures_pure.2 ⟨hl', hown i hout⟩
    | error f =>
      simp only [deliver, ensures_bind, ensures_modify, ensures_pure]
      exact hl'.congr (Store.untouched_releaseSlot _ r)

/-! ## Requests -/

theorem untouched_linger (cls : ClassId) : Guarantees Beyond Store.Untouched (linger cls) := by
  refine guarantees_get.bind fun s => ?_
  split
  · refine Guarantees.bind (guarantees_act fun s => ?_) fun _ => guarantees_waitUntil _ _
    exact Store.untouched_of_eq rfl rfl rfl rfl
  · exact guarantees_yield _

theorem untouched_perform (s : Store) (cls : ClassId) (i : InstanceId)
    (request response : Payload) : s.Untouched (s.perform cls i request response).1 := by
  obtain ⟨remotes, hr⟩ := perform_state s cls i request response
  rw [hr]
  exact Store.untouched_of_eq rfl rfl rfl rfl

/-- The write starts a `process` on the instance. -/
def Starts (w : Store × Store) (i : InstanceId) : Prop := ∃ cls, .processing cls i ∈ notedBy w

theorem not_starts {w : Store × Store}
    (h : Store.Notes (fun a => a.isProcessing = false) w.1 w.2) : ¬ Starts w i := by
  rintro ⟨cls, hc⟩
  obtain ⟨new, hn, hq⟩ := h
  rw [notedBy_eq (s := w.1) (t := w.2) hn] at hc
  exact Bool.noConfusion (hq _ hc)

theorem Store.Quietly.not_starts {t : Store} (h : s.Quietly t) : ¬ Starts (s, t) i :=
  Container.not_starts (h.1.mono fun _ ha => ha.1)

/-- A `process` is started once, at its first write; the rest of it concerns nobody else. -/
theorem process_effect (i : InstanceId) (e : RequestEvent) (s : Store) :
    Ensures Beyond (process i e) (fun own _ t =>
      (∃ cls, (s.note (.processing cls i)).Untouched t) ∧
      ∀ w ∈ own, ∀ j, Starts w j → w.1 = s ∧ j = i) s := by
  simp only [process, ensures_bind, ensures_act]
  refine (((untouched_linger _).frame Store.Untouched.refl (fun _ _ _ => .trans)
    (fun _ _ => .beyond) _).and ((quiet_linger _) _)).mono fun own _ u h => ?_
  obtain ⟨hu, hq⟩ := h
  refine ⟨⟨_, hu.trans ((untouched_perform u _ i _ _).trans (Store.untouched_note rfl _))⟩, ?_⟩
  intro w hw j hj
  rcases List.mem_append.1 hw with hw | hw
  · obtain rfl := List.mem_singleton.1 hw
    obtain ⟨cls, hc⟩ := hj
    have hn : notedBy (s, s.note (.processing (s.classOfInstance i) i)) =
      [.processing (s.classOfInstance i) i] := notedBy_eq rfl
    rw [hn] at hc
    simp only [List.mem_singleton, Act.processing.injEq] at hc
    exact ⟨rfl, hc.2⟩
  · refine absurd hj ?_
    rcases List.mem_append.1 hw with hw | hw
    · exact (hq w hw).not_starts
    · obtain rfl := List.mem_singleton.1 hw
      refine not_starts ((Store.notes_of_acts_eq (acts_perform u _ i _ _)).trans
        (Store.notes_note ?_ _))
      rfl

theorem destroy_effect {rely : Store → Store → Prop} (hrely : ∀ s t, rely s t → s.Untouched t)
    (i : InstanceId) (s : Store) :
    Ensures rely (destroy i) (fun _ _ t =>
      (s.note (.destroying (s.classOfInstance i) i)).Untouched t) s := by
  simp only [destroy, runDestroy, ensures_bind, ensures_act, ensures_yield, ensures_modify]
  intro u hu
  exact (hrely _ _ hu).trans (Store.untouched_note rfl _)

theorem finish_effect (r : RegistrationId) (i : InstanceId) (handler : String) (e : RequestEvent)
    (outcome : Except String Unit) (s : Store) :
    Ensures Beyond (finish r i handler e outcome) (fun _ _ t => (s.giveBack r i).Untouched t) s := by
  cases outcome with
  | ok => simpa [finish] using Store.Untouched.refl _
  | error cause => simpa [finish] using Store.untouched_measure _ _

theorem prepare_own (hi : s.IsOwn i) (r : RegistrationId) :
    Ensures Beyond (prepare r i false) (fun _ _ t => s.Untouched t) s := by
  rw [prepare]
  simp only [Bool.false_eq_true, ↓reduceIte, ensures_bind]
  refine (setUp_own (fun _ _ => .beyond) hi r).mono fun _ out t ht => ?_
  cases out with
  | ok => exact ensures_pure.2 ht
  | error cause => exact ensures_act.2 (ht.trans (Store.untouched_measure _ _))

/-- What a request may process with. -/
def Serves (P : RegistrationId → Prop) (s : Store) (w : Store × Store) : Prop :=
  ∀ i, Starts w i → w.1.IsStateless i → s.Steady w.1 ∧ w.1.Ledger P [.lent i]

theorem serves_of_quiet {own : List (Store × Store)}
    (h : ∀ w ∈ own, Store.Quietly w.1 w.2) : ∀ w ∈ own, Serves P s w :=
  fun w hw _ hs => absurd hs (h w hw).not_starts

/-- Processing with the shared instance and giving it back. -/
theorem process_shared {u : Store} (hu : u.Ledger P [.lent i]) (hsu : s.Steady u)
    (r : RegistrationId) (handler : String) (e : RequestEvent) :
    Ensures Beyond (process i e >>= fun ran => finish r i handler ran.1 ran.2)
      (fun own _ t => t.Ledger P [] ∧ ∀ w ∈ own, Serves P s w) u := by
  refine ensures_bind.2 ((process_effect i e u).mono fun own₁ ran v h => ?_)
  obtain ⟨⟨cls, hv⟩, h₁⟩ := h
  refine ((finish_effect r i handler ran.1 ran.2 v).and (quiet_finish r i handler ran.1 ran.2 v)).mono
    fun own₂ _ t h => ?_
  obtain ⟨ht, h₂⟩ := h
  refine ⟨((hu.processed.congr hv).giveBack r).congr ht, ?_⟩
  have hs₁ : ∀ w ∈ own₁, Serves P s w := by
    intro w hw j hj _
    obtain ⟨rfl, rfl⟩ := h₁ w hw j hj
    exact ⟨hsu, hu⟩
  have hs₂ := serves_of_quiet (P := P) (s := s) h₂
  exact List.forall_mem_append.2 ⟨hs₁, hs₂⟩

/-- Processing with an instance of one's own, which is destroyed afterwards. -/
theorem process_own {u : Store} (hu : u.Ledger P []) (hi : u.IsOwn i) (r : RegistrationId)
    (handler : String) (e : RequestEvent) :
    Ensures Beyond (process i e >>= fun ran => destroy i >>= fun _ => finish r i handler ran.1 ran.2)
      (fun own _ t => t.Ledger P [] ∧ ∀ w ∈ own, Serves P s w) u := by
  simp only [ensures_bind]
  refine (process_effect i e u).mono fun own₁ ran v h => ?_
  obtain ⟨⟨cls, hv⟩, h₁⟩ := h
  have huv := (Store.untouched_note_own hi rfl).trans hv
  have hiv := hi.congr huv
  refine ((destroy_effect (fun _ _ => .beyond) i v).and (quiet_destroy i v)).mono fun own₂ _ w h => ?_
  obtain ⟨hw, h₂⟩ := h
  have hvw := (Store.untouched_note_own hiv rfl).trans hw
  refine ((finish_effect r i handler ran.1 ran.2 w).and (quiet_finish r i handler ran.1 ran.2 w)).mono
    fun own₃ _ t h => ?_
  obtain ⟨ht, h₃⟩ := h
  have hwt := (Store.untouched_giveBack (hiv.congr hvw) r).trans ht
  refine ⟨hu.congr (huv.trans (hvw.trans hwt)), ?_⟩
  have hs₁ : ∀ w ∈ own₁, Serves P s w := by
    intro w hw j hj hjs
    obtain ⟨rfl, rfl⟩ := h₁ w hw j hj
    exact absurd hjs hi.2
  have hs₂ := serves_of_quiet (P := P) (s := s) h₂
  have hs₃ := serves_of_quiet (P := P) (s := s) h₃
  simp only [List.forall_mem_append]
  exact ⟨hs₁, hs₂, hs₃⟩

theorem invoke_ledger (h : s.Ledger P []) (hr : s.Admitted P r) (e : RequestEvent) :
    Ensures Beyond (invoke r e) (fun own _ t => t.Ledger P [] ∧ ∀ w ∈ own, Serves P s w) s := by
  rw [invoke, ensures_bind]
  refine (((createHandler_spec h hr).and (quiet_createHandler r s)).and
    ((quiet_createHandler r).steady s)).mono fun own₁ got u h' => ?_
  obtain ⟨⟨hu, h₁⟩, hsu⟩ := h'
  have hs₁ := serves_of_quiet (P := P) (s := s) h₁
  cases got with
  | error f => exact ensures_pure.2 ⟨hu, by simpa using hs₁⟩
  | ok i =>
    simp only [ensures_bind, ensures_get, List.nil_append]
    rw [hsu.instancing]
    cases hb : (s.registration r).instancing.sharesInstance with
    | true =>
      rw [hb] at hu
      simp only [prepare, ↓reduceIte, ensures_pure, Bool.not_true, Bool.false_eq_true,
        List.nil_append]
      refine (process_shared hu hsu r (u.registration r).name e).mono fun own₂ _ t h' => ?_
      exact ⟨h'.1, List.forall_mem_append.2 ⟨hs₁, h'.2⟩⟩
    | false =>
      rw [hb] at hu
      obtain ⟨hu', hi⟩ : u.Ledger P [] ∧ u.IsOwn i := hu
      refine ((prepare_own hi r).and (quiet_prepare r i false u)).mono
        fun own₂ ready v h' => ?_
      obtain ⟨hv, h₂⟩ := h'
      have hs₂ := serves_of_quiet (P := P) (s := s) h₂
      cases ready with
      | error f =>
        simp only [ensures_bind, ensures_modify, ensures_pure, List.append_nil]
        refine ⟨(hu'.congr hv).congr (Store.untouched_giveBack (hi.congr hv) r), ?_⟩
        have hs₃ : Serves P s (v, v.giveBack r i) := fun j hj =>
          absurd hj (v.quietly_giveBack r i).not_starts
        simp only [List.forall_mem_append, List.forall_mem_singleton]
        exact ⟨hs₁, hs₂, hs₃⟩
      | ok =>
        simp only [Bool.not_false, ↓reduceIte]
        refine (process_own (s := s) (hu'.congr hv) (hi.congr hv) r (u.registration r).name e).mono
          fun own₃ _ t h' => ?_
        simp only [List.forall_mem_append]
        exact ⟨h'.1, hs₁, hs₂, h'.2⟩

/-! ## Teardown and preloading -/

/-- An instance that only the sole hand holds is destroyed. -/
theorem retire_spec (h : s.Ledger P [.sole i]) (r : RegistrationId) :
    Ensures Beyond (retire r i) (fun _ _ t => t.Ledger P []) s := by
  simp only [retire, ensures_bind, ensures_waitUntil, ensures_get]
  intro u hu _
  have hl := h.congr (Store.Untouched.beyond hu)
  have h1 : u.holders i = 1 := by
    obtain ⟨ho, hf, hh, -, hs, -⟩ := hl.balanced i (hl.held (.sole i) (by simp))
    simp at ho hf hh hs
    omega
  rw [if_pos h1, ensures_bind]
  refine (destroy_effect (fun _ _ => .beyond) i u).mono fun _ _ v hv => ?_
  exact ensures_modify.2 (((hl.destroyed h1).congr hv).drop (.inr rfl))

theorem teardown_spec (h : s.Ledger P []) (r : RegistrationId) :
    Ensures Beyond (teardown r) (fun _ _ t => t.Ledger (fun r' => P r' ∧ r' ≠ r) []) s := by
  simp only [teardown, ensures_bind, ensures_waitUntil, ensures_act, Store.takeShared]
  intro u hu _
  have hl := h.congr (Store.Untouched.beyond hu)
  cases hsh : (u.registration r).shared with
  | none =>
    have he := hl.empty_of_none hsh
    exact ensures_pure.2 (he.congr (Store.untouched_updateRegistration hsh.symm))
  | some i => exact retire_spec (hl.empty hsh rfl) r

theorem teardownAll_spec (h : s.Ledger P []) (rs : List RegistrationId) :
    Ensures Beyond (teardownAll rs) (fun _ _ t => t.Ledger (fun r => P r ∧ r ∉ rs) []) s := by
  induction rs generalizing s P with
  | nil => exact ensures_pure.2 (h.mono fun r hr => ⟨hr, by simp⟩)
  | cons r rs ih =>
    refine ensures_bind.2 ((teardown_spec h r).mono fun _ _ u hu => ?_)
    refine (ih hu).mono fun _ _ t ht => ht.mono fun r' hr' => ⟨hr'.1.1, ?_⟩
    simpa using ⟨hr'.1.2, hr'.2⟩

theorem preload_spec (h : s.Ledger P []) (hr : s.Admitted P r) :
    Ensures Beyond (preload r) (fun _ _ t => t.Ledger P []) s := by
  simp only [preload, ensures_bind, ensures_get]
  cases hb : (s.registration r).instancing.sharesInstance with
  | false => exact ensures_pure.2 h
  | true =>
    refine ensures_bind.2 ((createHandler_spec h hr).mono fun _ got u hu => ?_)
    rw [hb] at hu
    cases got with
    | error f => exact ensures_pure.2 hu
    | ok i =>
      simp only [ensures_bind, ensures_modify, ensures_pure]
      exact Store.Ledger.giveBack hu r

theorem preloadAll_spec (h : s.Ledger P []) {rs : List RegistrationId}
    (hrs : ∀ r ∈ rs, s.Admitted P r) :
    Ensures Beyond (preloadAll rs) (fun _ _ t => s.Steady t ∧ t.Ledger P []) s := by
  induction rs generalizing s with
  | nil => exact ensures_pure.2 ⟨.refl s, h⟩
  | cons r rs ih =>
    have hrs' : ∀ r ∈ rs, s.Admitted P r := fun r' hr' => hrs r' (by simp [hr'])
    simp only [preloadAll, ensures_bind, ensures_get]
    cases (s.registration r).loadOnStartup with
    | false => exact ih h hrs'
    | true =>
      refine ensures_bind.2 (((preload_spec h (hrs r (by simp))).and ((quiet_preload r).steady s)).mono
        fun _ out u h' => ?_)
      obtain ⟨hu, hsu⟩ := h'
      cases out with
      | error f => exact ensures_pure.2 ⟨hsu, hu⟩
      | ok =>
        refine (ih hu fun r' hr' => (hrs' r' hr').steady hsu).mono fun _ _ t h' => ?_
        exact ⟨hsu.trans _ _ _ h'.1, h'.2⟩

end

end Switchboard.Container
