import Switchboard.Proofs.ContextLedger
import Switchboard.Proofs.Guards

/-!
# The default handler of a context

The default is the name of a registration, kept beside the registrations. It is
set only while something is registered under it; a registration that replaces
another keeps the name, and a destruction clears the default with the desk. A
removal does not look at the default. So a context whose default is never removed
has none or one that is registered, and the removal of the default is the only
operation that leaves a name behind under which nothing is registered.
-/

namespace Switchboard.Container

open Activity
open Lifecycle (Phase)

/-! ## Desks -/

namespace Desk

/-- Names are distinct, and if `P` the default is one of them. -/
structure Sound (P : Prop) (desk : Desk) : Prop where
  distinct : (Directory.names desk.handlers).Nodup
  default : P → ∀ name, desk.defaultHandler = some name → ∃ r, desk.handlers.find? name = some r

variable {P : Prop} {desk : Desk} {name : String}

theorem Sound.insert (h : desk.Sound P) (name : String) (r : RegistrationId) :
    (desk.insert name r).Sound P where
  distinct := Directory.nodup_names_put h.distinct name r
  default hP key hkey := by
    simp only [Desk.insert, Directory.find?_put]
    split
    · exact ⟨r, rfl⟩
    · exact h.default hP key hkey

theorem Sound.appoint (h : desk.Sound P) {r : RegistrationId} (hr : desk.handlers.find? name = some r) :
    Sound P { desk with defaultHandler := some name } where
  distinct := h.distinct
  default _ key hkey := by
    obtain rfl := Option.some.inj hkey
    exact ⟨r, hr⟩

theorem Sound.erase (h : desk.Sound P) (hname : P → desk.defaultHandler ≠ some name) :
    Sound P { desk with handlers := desk.handlers.erase name } where
  distinct := h.distinct.sublist ((Directory.erase_sublist name desk.handlers).map _)
  default hP key hkey := by
    rw [Directory.find?_erase h.distinct, if_neg fun heq : name = key => hname hP (heq ▸ hkey)]
    exact h.default hP key hkey

theorem Sound.find?_erase (h : desk.Sound P) : (desk.handlers.erase name).find? name = none := by
  rw [Directory.find?_erase h.distinct, if_pos rfl]

end Desk

namespace Store

def default? (s : Store) (d : ComponentId) : Option String := (s.desk? d).bind (·.defaultHandler)

/-- The context has no default, or one under which something is registered. -/
def DefaultStands (s : Store) (d : ComponentId) : Prop :=
  ∀ name, s.default? d = some name → ∃ r, s.handler? d name = some r

/-- The desk of the context is sound. -/
def Staffed (P : Prop) (d : ComponentId) (s : Store) : Prop := ∃ desk, s.desk? d = some desk ∧ desk.Sound P

/-- The desk of the context is left as it was. -/
def LeavesDesk (d : ComponentId) (s t : Store) : Prop := t.desk? d = s.desk? d

variable {P Q : Prop} {s t : Store} {d : ComponentId} {desk : Desk}

theorem LeavesDesk.refl (s : Store) : s.LeavesDesk d s := rfl

theorem LeavesDesk.trans (s t u : Store) (h : s.LeavesDesk d t) (k : t.LeavesDesk d u) : s.LeavesDesk d u :=
  Eq.trans k h

theorem Steady.leavesDesk (h : s.Steady t) : s.LeavesDesk d t := h.desk? d

theorem UsesOnly.leavesDesk {r : RegistrationId} (h : s.UsesOnly r t) : s.LeavesDesk d t := h.steady.leavesDesk

theorem Staffed.of_leavesDesk (h : s.Staffed P d) (hs : s.LeavesDesk d t) : t.Staffed P d := by
  obtain ⟨desk, hd, hsound⟩ := h
  exact ⟨desk, (show t.desk? d = s.desk? d from hs).trans hd, hsound⟩

theorem Staffed.defaultStands (h : s.Staffed P d) (hP : P) : s.DefaultStands d := by
  obtain ⟨desk, hd, hsound⟩ := h
  intro name hname
  rw [default?, hd] at hname
  rw [handler?, hd]
  exact hsound.default hP name hname

theorem Staffed.imp (h : s.Staffed P d) (hQP : Q → P) : s.Staffed Q d := by
  obtain ⟨desk, hd, hsound⟩ := h
  exact ⟨desk, hd, hsound.distinct, fun hQ => hsound.default (hQP hQ)⟩

theorem Staffed.of_defaultStands (h : s.Staffed P d) (hs : s.DefaultStands d) : s.Staffed Q d := by
  obtain ⟨desk, hd, hsound⟩ := h
  refine ⟨desk, hd, hsound.distinct, fun _ name hname => ?_⟩
  rw [DefaultStands, default?, hd] at hs
  obtain ⟨r, hr⟩ := hs name hname
  rw [handler?, hd] at hr
  exact ⟨r, hr⟩

theorem Staffed.updateDesk {f : Desk → Desk} (hd : s.desk? d = some desk) (hf : (f desk).Sound P) :
    (s.updateDesk d f).Staffed P d :=
  ⟨f desk, desk?_of_updateDesk hd f, hf⟩

end Store

section

variable {P Q : Prop} {s t : Store} {d : ComponentId} {desk : Desk}

/-! ## Operations -/

/-- An activity that leaves the desk alone, among others who do. -/
theorem leavesDesk_frame {α : Type} {x : Work α}
    (h : Guarantees (Store.LeavesDesk d) (Store.LeavesDesk d) x) (s : Store) :
    Ensures (Store.LeavesDesk d) x (fun _ _ t => s.LeavesDesk d t) s :=
  h.frame Store.LeavesDesk.refl Store.LeavesDesk.trans (fun _ _ => id) s

theorem leavesDesk_teardown (r : RegistrationId) (s : Store) :
    Ensures (Store.LeavesDesk d) (teardown r) (fun _ _ t => s.LeavesDesk d t) s :=
  leavesDesk_frame ((usesOnly_teardown r).mono fun _ _ h => h.leavesDesk) s

theorem leavesDesk_teardownAll (rs : List RegistrationId) (s : Store) :
    Ensures (Store.LeavesDesk d) (teardownAll rs) (fun _ _ t => s.LeavesDesk d t) s :=
  leavesDesk_frame (guarantees_teardownAll (fun r => (usesOnly_teardown r).mono fun _ _ h => h.leavesDesk) rs) s

theorem leavesDesk_dispatchContext (e : RequestEvent) (s : Store) :
    Ensures (Store.LeavesDesk d) (dispatchContext d e) (fun _ _ t => s.LeavesDesk d t) s :=
  leavesDesk_frame (guarantees_dispatchContext (fun r e => (usesOnly_invoke r e).mono fun _ _ h => h.leavesDesk)
    (guarantees_consult (fun _ _ _ _ => rfl) fun _ _ _ => rfl) d e) s

theorem insertRegistration_staffed (h : s.Staffed P d) (r : RegistrationId) :
    (s.insertRegistration d r).1.Staffed P d := by
  obtain ⟨desk, hd, hsound⟩ := h
  exact ⟨_, Store.desk?_of_updateDesk (s := s.updateRegistration r _) hd _, hsound.insert _ r⟩

theorem register_staffed (h : s.Staffed P d) (entry : Entry) : (s.register d entry).Staffed P d := by
  unfold Store.register
  split
  · exact h
  · exact insertRegistration_staffed (s := (s.addRegistration _).1) h _

theorem setDefault_staffed (h : s.Staffed P d) (name : String) : (s.setDefault d name).1.Staffed P d := by
  obtain ⟨desk, hd, hsound⟩ := h
  unfold Store.setDefault
  split
  · exact ⟨desk, hd, hsound⟩
  · rename_i r hr
    have hfind : desk.handlers.find? name = some r := by
      simp only [Store.requireHandler, Store.handler?, hd, Option.bind_some] at hr
      split at hr
      · rename_i hf
        rw [hf, Except.ok.inj hr]
      · cases hr
    exact .updateDesk hd (hsound.appoint hfind)

theorem removeHandler_desk (hd : s.desk? d = some desk) (name : String) :
    Ensures (Store.LeavesDesk d) (removeHandler d name) (fun _ _ t =>
      t.desk? d = some { desk with handlers := desk.handlers.erase name }) s := by
  simp only [removeHandler, ensures_bind, ensures_get, Store.handler?, hd, Option.bind_some]
  cases hf : desk.handlers.find? name with
  | none =>
    rw [Directory.erase_eq_self hf]
    exact ensures_pure.2 hd
  | some r =>
    simp only [ensures_bind, ensures_modify]
    refine (leavesDesk_teardown r _).mono fun _ _ t ht => ensures_pure.2 ?_
    exact Eq.trans ht (Store.desk?_of_updateDesk hd _)

theorem contextHook_staffed (h : s.Staffed P d) (p : Phase) :
    Ensures (Store.LeavesDesk d) (contextHook d p) (fun _ _ t => t.Staffed P d) s := by
  obtain ⟨desk, hd, hsound⟩ := h
  cases p with
  | init => exact ensures_pure.2 ⟨desk, hd, hsound⟩
  | start =>
    refine ensures_bind.2 (ensures_get.2 ?_)
    have hpreload : Ensures (Store.LeavesDesk d) (preloadAll (s.handlers d)) (fun _ _ t => s.LeavesDesk d t) s :=
      leavesDesk_frame (guarantees_preloadAll (fun r => (usesOnly_preload r).mono fun _ _ h => h.leavesDesk) _) s
    exact hpreload.mono fun _ _ t ht => Store.Staffed.of_leavesDesk ⟨desk, hd, hsound⟩ ht
  | stop =>
    simp only [contextHook, Store.takeRetired, ensures_bind, ensures_act, ensures_get, ensures_pure]
    have hu : (s.updateDesk d fun d => { d with retired := [] }).Staffed P d :=
      .updateDesk hd ⟨hsound.distinct, hsound.default⟩
    refine (leavesDesk_teardownAll _ _).mono fun _ _ v hv => ?_
    exact (leavesDesk_teardownAll _ v).mono fun _ _ t ht => (hu.of_leavesDesk hv).of_leavesDesk ht
  | destroy =>
    simp only [contextHook, Store.takeHandlers, Store.takeRetired, ensures_bind, ensures_act, ensures_modify,
      ensures_pure]
    have hu := Store.desk?_of_updateDesk hd fun d => { d with handlers := [] }
    have hw := Store.desk?_of_updateDesk hu fun d => { d with retired := [] }
    refine (leavesDesk_teardownAll _ _).mono fun _ _ v hv => ?_
    refine (leavesDesk_teardownAll _ v).mono fun _ _ t ht => ?_
    -- Until this last write the default is one that is not registered any more.
    refine .updateDesk (Eq.trans ht (Eq.trans hv hw)) ⟨.nil, fun _ name hname => ?_⟩
    cases hname

theorem phase_staffed (h : s.Staffed P d) (p : Phase) :
    Ensures (Store.LeavesDesk d) (phase d p) (fun _ _ t => t.Staffed P d) s := by
  have ⟨desk, hd, _⟩ := h
  simp only [phase, ensures_bind, ensures_get, height_of_desk hd]
  refine (Lifecycle.runPhase_ends (I := (·.Staffed P d)) (J := fun _ => (·.Staffed P d)) (fun _ _ h => h)
    (fun _ _ _ h => h) (fun _ _ h => h) (fun _ => rfl) (fun q s h => contextHook_staffed h q) h).mono
    fun _ _ t ht => ht.1

end

/-! ## Sequences of operations -/

/-- What can be asked of a context, a registration that exists already being added included. -/
inductive Request where
  | ask (op : Op)
  | add (r : RegistrationId)

namespace Request

def work (d : ComponentId) : Request → Work Unit
  | ask op => op.work d
  | add r => .modify fun s => (s.insertRegistration d r).1

/-- The request removes the handler that is the default. -/
def Orphans (d : ComponentId) (s : Store) (q : Request) : Prop :=
  ∃ name, q = ask (.remove name) ∧ s.default? d = some name

end Request

/-- The stores that a context comes through from its creation on, with what has been asked of it and the
stores that it was asked in. Meanwhile and in between anything may be done elsewhere. -/
inductive Tenure (d : ComponentId) : List (Store × Request) → Store → Prop where
  | start {s : Store} {desk : Desk} : s.desk? d = some desk → desk.handlers = [] →
      desk.defaultHandler = none → Tenure d [] s
  | elsewhere {asked : List (Store × Request)} {s t : Store} :
      Tenure d asked s → s.LeavesDesk d t → Tenure d asked t
  | step {asked : List (Store × Request)} {s t : Store} (q : Request) {own : List (Store × Store)} :
      Tenure d asked s → Runs (Store.LeavesDesk d) (q.work d) s own () t → Tenure d ((s, q) :: asked) t

section

variable {P : Prop} {s t : Store} {d : ComponentId} {asked : List (Store × Request)} {q : Request}

theorem request_staffed (h : s.Staffed P d) (hq : P → ¬ q.Orphans d s) :
    Ensures (Store.LeavesDesk d) (q.work d) (fun _ _ t => t.Staffed P d) s := by
  cases q with
  | add r => exact ensures_modify.2 (insertRegistration_staffed h r)
  | ask op =>
    cases op with
    | register entry => exact ensures_modify.2 (register_staffed h entry)
    | adjust r params unavailable loadOnStartup hook => exact ensures_modify.2 h
    | setDefault name => exact ensures_modify.2 (setDefault_staffed h name)
    | remove name =>
      obtain ⟨desk, hd, hsound⟩ := h
      have hname : P → desk.defaultHandler ≠ some name := fun hP heq =>
        hq hP ⟨name, rfl, by rw [Store.default?, hd, Option.bind_some, heq]⟩
      refine ensures_bind.2 ((removeHandler_desk hd name).mono fun _ _ t ht => ensures_pure.2 ?_)
      exact ⟨_, ht, hsound.erase hname⟩
    | dispatch e =>
      refine ensures_bind.2 ((leavesDesk_dispatchContext e s).mono fun _ _ t ht => ensures_pure.2 ?_)
      exact h.of_leavesDesk ht
    | phase p =>
      exact ensures_bind.2 ((phase_staffed h p).mono fun _ _ t ht => ensures_pure.2 ht)

/-- The name stays the default, and nothing is registered under it. -/
theorem request_orphans (h : s.Staffed P d) (hq : q.Orphans d s) :
    Ensures (Store.LeavesDesk d) (q.work d) (fun _ _ t => ¬ t.DefaultStands d) s := by
  obtain ⟨name, rfl, hname⟩ := hq
  obtain ⟨desk, hd, hsound⟩ := h
  rw [Store.default?, hd] at hname
  refine ensures_bind.2 ((removeHandler_desk hd name).mono fun _ _ t ht => ensures_pure.2 fun hstands => ?_)
  obtain ⟨r, hr⟩ := hstands name (by rw [Store.default?, ht]; exact hname)
  rw [Store.handler?, ht, Option.bind_some, hsound.find?_erase] at hr
  cases hr

theorem Tenure.staffed (h : Tenure d asked s) : s.Staffed (∀ w ∈ asked, ¬ w.2.Orphans d w.1) d := by
  -- Names stay distinct in any case; the condition on the default grows with each request.
  induction h with
  | start hd hhandlers hdefault =>
    refine ⟨_, hd, ?_, fun _ name hname => ?_⟩
    · rw [hhandlers]
      exact .nil
    · rw [hdefault] at hname
      cases hname
  | elsewhere _ hs ih => exact ih.of_leavesDesk hs
  | step q _ hr ih =>
    refine request_staffed (ih.imp ?_) ?_ _ _ _ hr
    · exact fun hall => (List.forall_mem_cons.1 hall).2
    · exact fun hall => (List.forall_mem_cons.1 hall).1

/-- The default is registered. As long as no handler is removed that is the default at the time, a context
has no default or one under which a handler is registered; and however it came about that this is so, it
is so after the next request exactly if that is no such removal. -/
theorem default_registered (h : Tenure d asked s) :
    ((∀ w ∈ asked, ¬ w.2.Orphans d w.1) → s.DefaultStands d) ∧
      (s.DefaultStands d → ∀ (q : Request) (own : List (Store × Store)) (t : Store),
        Runs (Store.LeavesDesk d) (q.work d) s own () t → (t.DefaultStands d ↔ ¬ q.Orphans d s)) := by
  refine ⟨h.staffed.defaultStands, fun hs q own t hr => ⟨fun ht hq => ?_, fun hq => ?_⟩⟩
  · exact request_orphans h.staffed hq _ _ _ hr ht
  · have hstaffed : s.Staffed True d := h.staffed.of_defaultStands hs
    exact (request_staffed hstaffed (fun _ => hq) _ _ _ hr).defaultStands trivial

end

/-- Two handlers are registered, one of them is made the default, and the other one is removed. -/
theorem default_registered_sample :
    ∃ asked s own t, Tenure 0 asked s ∧ (∀ w ∈ asked, ¬ w.2.Orphans 0 w.1) ∧
      s.default? 0 = some "echo" ∧ s.DefaultStands 0 ∧
      Runs (Store.LeavesDesk 0) ((Request.ask (.remove "spare")).work 0) s own () t ∧ t.DefaultStands 0 := by
  have h₀ : Tenure 0 [] sampleContext := .start rfl rfl rfl
  have hruns : ∃ s₁ s₂ s₃ t,
      ((Request.ask (.register { name := "echo", cls := 0 })).work 0).run sampleContext = .finished () s₁ ∧
      ((Request.ask (.register { name := "spare", cls := 0 })).work 0).run s₁ = .finished () s₂ ∧
      ((Request.ask (.setDefault "echo")).work 0).run s₂ = .finished () s₃ ∧
      ((Request.ask (.remove "spare")).work 0).run s₃ = .finished () t ∧ s₃.default? 0 = some "echo" :=
    ⟨_, _, _, _, rfl, rfl, rfl, rfl, rfl⟩
  obtain ⟨s₁, s₂, s₃, t, h₁, h₂, h₃, h₄, hname⟩ := hruns
  obtain ⟨own₁, hr₁⟩ := Runs.of_run Store.LeavesDesk.refl h₁
  obtain ⟨own₂, hr₂⟩ := Runs.of_run Store.LeavesDesk.refl h₂
  obtain ⟨own₃, hr₃⟩ := Runs.of_run Store.LeavesDesk.refl h₃
  obtain ⟨own₄, hr₄⟩ := Runs.of_run Store.LeavesDesk.refl h₄
  obtain ⟨asked, h, hcareful⟩ : ∃ asked, Tenure 0 asked s₃ ∧ ∀ w ∈ asked, ¬ w.2.Orphans 0 w.1 :=
    ⟨_, ((h₀.step _ hr₁).step _ hr₂).step _ hr₃, by simp [Request.Orphans]⟩
  have hother : ¬ (Request.ask (.remove "spare")).Orphans 0 s₃ := by
    rintro ⟨name, ⟨⟩, heq⟩
    exact absurd (Option.some.inj (hname.symm.trans heq)) (by decide)
  have hstands := (default_registered h).1 hcareful
  have hnext := ((default_registered h).2 hstands _ _ _ hr₄).2 hother
  exact ⟨asked, s₃, own₄, t, h, hcareful, hname, hstands, hr₄, hnext⟩

/-- A handler is registered and made the default; it is removed, and stays the default. -/
theorem removed_default_stays :
    ∃ asked t, Tenure 0 asked t ∧
      asked.map (·.2) = [.ask (.remove "echo"), .ask (.setDefault "echo"),
        .ask (.register { name := "echo", cls := 0 })] ∧
      t.default? 0 = some "echo" ∧ t.handler? 0 "echo" = none := by
  have h₀ : Tenure 0 [] sampleContext := .start rfl rfl rfl
  have hruns : ∃ s₁ s₂ t,
      ((Request.ask (.register { name := "echo", cls := 0 })).work 0).run sampleContext = .finished () s₁ ∧
      ((Request.ask (.setDefault "echo")).work 0).run s₁ = .finished () s₂ ∧
      ((Request.ask (.remove "echo")).work 0).run s₂ = .finished () t ∧
      t.default? 0 = some "echo" ∧ t.handler? 0 "echo" = none :=
    ⟨_, _, _, rfl, rfl, rfl, rfl, rfl⟩
  obtain ⟨s₁, s₂, t, h₁, h₂, h₃, hname, hnone⟩ := hruns
  obtain ⟨own₁, hr₁⟩ := Runs.of_run Store.LeavesDesk.refl h₁
  obtain ⟨own₂, hr₂⟩ := Runs.of_run Store.LeavesDesk.refl h₂
  obtain ⟨own₃, hr₃⟩ := Runs.of_run Store.LeavesDesk.refl h₃
  exact ⟨_, t, ((h₀.step _ hr₁).step _ hr₂).step _ hr₃, rfl, hname, hnone⟩

end Switchboard.Container
