import Switchboard.Proofs.Desks
import Switchboard.Proofs.PhaseRuns

/-!
# The ledger of a context

The shared instances of one context, from its first registration on. `Kept d s`
is what holds between two operations of the context `d`: its registrations are
there, nobody holds an instance, and the slots in use are those of registrations
on its desk, current or replaced. Every operation keeps it, whatever classes and
handlers make fail, and a stop or a destruction leaves no slot in use.
-/

namespace Switchboard.Container

open Activity
open Lifecycle (Board Phase runPhase runSingle)

namespace Store

/-- Not destroyed, and in the slot of exactly one registration, which is on the desk. -/
def Live (s : Store) (d : ComponentId) (i : InstanceId) : Prop :=
  s.marks i .destroyed = 0 ∧ s.slots i = 1 ∧
    ∃ r, (s.registration r).shared = some i ∧ s.OnDesk d r

/-- Destroyed once, and in no slot. -/
def Dead (s : Store) (i : InstanceId) : Prop := s.marks i .destroyed = 1 ∧ s.slots i = 0

structure Kept (d : ComponentId) (s : Store) : Prop where
  desk : ∃ desk, s.desk? d = some desk
  admitted : ∀ r, s.OnDesk d r → s.Admitted (s.OnDesk d) r
  ledger : s.Ledger (s.OnDesk d) []

variable {s t u : Store} {d : ComponentId} {r : RegistrationId} {i : InstanceId}
  {P Q : RegistrationId → Prop}

/-- Between operations: the registrations on the desk are admitted, and they alone fill slots. -/
theorem Kept.of_enrols {desk : Desk} (he : Enrols s t) (hd : t.desk? d = some desk)
    (hadm : ∀ r, t.OnDesk d r → s.Admitted P r) (hl : t.Ledger Q [])
    (hQ : ∀ r, Q r → t.OnDesk d r) : t.Kept d :=
  ⟨⟨desk, hd⟩, fun r hr => ((hadm r hr).enrols he).mono fun _ => hr, hl.mono hQ⟩

theorem Kept.steady (h : s.Kept d) (hs : s.Steady t) (hl : t.Ledger (s.OnDesk d) []) : t.Kept d := by
  obtain ⟨desk, hd⟩ := h.desk
  refine ⟨⟨desk, by rw [hs.desk?, hd]⟩, fun r hr => ?_, hl.mono fun r hr => hs.onDesk.2 hr⟩
  exact ((h.admitted r (hs.onDesk.1 hr)).steady hs).mono fun h => hs.onDesk.2 h

theorem shelved_singleton : s.Shelved [d] r ↔ s.OnDesk d r := by
  simp [Shelved]

theorem Kept.stocked (h : s.Kept d) : s.Stocked [d] where
  admitted e he r hr := by
    rw [List.mem_singleton.1 he] at hr
    exact (h.admitted r hr).mono shelved_singleton.2
  ledger := h.ledger.mono fun _ => shelved_singleton.2

theorem Stocked.kept (h : s.Stocked [d]) (hd : ∃ desk, s.desk? d = some desk) : s.Kept d where
  desk := hd
  admitted r hr := (h.admitted d List.mem_cons_self r hr).mono shelved_singleton.1
  ledger := h.ledger.mono fun _ => shelved_singleton.1

theorem Kept.beyond (h : s.Kept d) (hb : Beyond s t) : t.Kept d :=
  h.steady (.beyond hb) (h.ledger.congr (.beyond hb))

end Store

/-- Whatever the write starts a `process` on is live. -/
def Fair (d : ComponentId) (w : Store × Store) : Prop :=
  ∀ i, Starts w i → w.1.IsStateless i → w.1.Live d i

section

variable {s t : Store} {d : ComponentId} {r : RegistrationId}

/-- An instance that serves a request of a context is live. -/
theorem Serves.fair {w : Store × Store} (h : Serves (s.OnDesk d) s w) : Fair d w := by
  intro i hw hi
  obtain ⟨hs, hl⟩ := h i hw hi
  obtain ⟨ho, hf, -, hl', -, -⟩ := hl.balanced i hi
  simp at ho hf hl'
  obtain ⟨r, hr⟩ := Store.exists_of_slots_pos (s := w.1) (i := i) (by omega)
  exact ⟨by omega, hl', r, hr, hs.onDesk.2 (hl.shared r i hr).1⟩

theorem fair_of_notes {w : Store × Store}
    (h : Store.Notes (fun a => a.isProcessing = false) w.1 w.2) : Fair d w :=
  fun _ hs => absurd hs (not_starts h)

/-! ## Requests -/

/-- Neither the ledger nor the tree is concerned, and nothing is processed. -/
structure Store.Aside (s t : Store) : Prop where
  untouched : s.Untouched t
  steady : s.Steady t
  notes : Store.Notes (fun a => a.isProcessing = false) s t

theorem Store.Aside.refl (s : Store) : s.Aside s := ⟨.refl s, .refl s, notes_of_acts_eq rfl⟩

theorem Store.Aside.trans (s t u : Store) (h : s.Aside t) (k : t.Aside u) : s.Aside u :=
  ⟨h.1.trans k.1, h.2.trans _ _ _ k.2, h.3.trans k.3⟩

theorem Store.Aside.beyond (h : Beyond s t) : s.Aside t := by
  refine ⟨.beyond h, .beyond h, ?_⟩
  obtain ⟨board, gates, rfl⟩ := h
  exact notes_of_acts_eq rfl

theorem Store.aside_note {a : Act} (hm : a.mark? = none) (hp : a.isProcessing = false) (s : Store) :
    s.Aside (s.note a) := ⟨untouched_note hm s, steady_of_eq rfl rfl rfl, notes_note hp s⟩

theorem aside_consult (g : Registration) (e : RequestEvent) :
    Guarantees Beyond Store.Aside (consult g e) :=
  guarantees_consult (fun s _ _ _ => Store.aside_note rfl rfl s) (fun s _ _ => Store.aside_note rfl rfl s) g e

theorem serve_kept (h : s.Kept d) (hr : s.OnDesk d r) (e : RequestEvent) :
    Ensures Beyond (serve r e) (fun own _ t => t.Kept d ∧ ∀ w ∈ own, Fair d w) s := by
  refine ((invoke_ledger h.ledger (h.admitted r hr) _).and (((usesOnly_invoke r _).mono fun _ _ h => h.steady).frame
    Store.Steady.refl Store.Steady.trans (fun _ _ => .beyond) s)).mono fun own _ t ht => ?_
  exact ⟨h.steady ht.2 ht.1.1, fun w hw => (ht.1.2 w hw).fair⟩

theorem dispatchContext_kept (h : s.Kept d) (e : RequestEvent) :
    Ensures Beyond (dispatchContext d e) (fun own _ t => t.Kept d ∧ ∀ w ∈ own, Fair d w) s := by
  obtain ⟨desk, hd⟩ := h.desk
  simp only [dispatchContext, ensures_bind, ensures_get, hd, List.nil_append]
  cases hres : desk.resolve e with
  | none => exact ensures_pure.2 ⟨h, by simp⟩
  | some r =>
    have hr : s.OnDesk d r := by
      obtain ⟨name, -, hf⟩ := Option.bind_eq_some_iff.1 hres
      exact ⟨desk, hd, .inl (List.mem_map.2 ⟨_, Directory.mem_of_find? hf, rfl⟩)⟩
    dsimp only
    split
    · exact ensures_pure.2 ⟨h, by simp⟩
    split
    · refine ensures_bind.2 (((aside_consult _ e s).and ((aside_consult _ e).frame Store.Aside.refl
        Store.Aside.trans (fun _ _ => .beyond) s)).mono fun own out u hc => ?_)
      obtain ⟨hw, hu⟩ := hc
      have hk : u.Kept d := h.steady hu.steady (h.ledger.congr hu.untouched)
      have hfair : ∀ w ∈ own, Fair d w := fun w hm => fair_of_notes (hw w hm).notes
      split
      · exact ensures_pure.2 ⟨hk, by simpa using hfair⟩
      · exact ensures_pure.2 ⟨hk, by simpa using hfair⟩
      · refine (serve_kept hk (hu.steady.onDesk.2 hr) _).mono fun own' _ t ht => ⟨ht.1, ?_⟩
        exact List.forall_mem_append.2 ⟨hfair, ht.2⟩
    · exact serve_kept h hr e

end

/-! ## Registering and removing -/

section

variable {s t : Store} {d : ComponentId} {r : RegistrationId}

/-- What a handler is registered with. -/
structure Entry where
  name : String
  cls : ClassId
  params : Params := .empty
  unavailable : Bool := false
  loadOnStartup : Bool := false
  hook : Option HookId := none

/-- Makes a registration and puts it on the desk, unless its class is refused. -/
def Store.register (s : Store) (d : ComponentId) (entry : Entry) : Store :=
  match s.newRegistration entry.name entry.cls with
  | .error _ => s
  | .ok g =>
    let (s, r) := s.addRegistration
      { g with
        params := entry.params
        unavailable := entry.unavailable
        loadOnStartup := entry.loadOnStartup
        hook := entry.hook }
    (s.insertRegistration d r).1

/-- A registration with an empty slot is added. -/
theorem Store.untouched_add {g : Registration} (hg : g.shared = none) (s : Store) :
    s.Untouched { s with registrations := s.registrations.add g } where
  stateless _ := .rfl
  marks _ _ _ := rfl
  unknown _ h := h
  shared r := by
    rw [registration_add]
    split
    · rename_i h
      subst h
      rw [hg, registration, Roster.getD, Roster.get?, Roster.size, List.getElem?_eq_none (Nat.le_refl _)]
      rfl
    · rfl
  slots i := by simp [slots, Roster.add, hg]
  holders _ _ := rfl

theorem Store.enrols_add (s : Store) (g : Registration) :
    s.Enrols { s with registrations := s.registrations.add g } := by
  refine ⟨rfl, fun r hr => ⟨?_, ?_⟩⟩
  · rw [Roster.size_add]
    omega
  · rw [registration_add, if_neg (Nat.ne_of_lt hr)]

/-- What was registered under any name is still registered or replaced. -/
theorem Desk.mem_insert {desk : Desk} {name : String} {r r' : RegistrationId} :
    r' ∈ Directory.values (desk.insert name r).handlers ∨ r' ∈ (desk.insert name r).retired ↔
      r' = r ∨ r' ∈ Directory.values desk.handlers ∨ r' ∈ desk.retired := by
  have hput := Directory.mem_values_put name r r' desk.handlers
  simp only [Desk.insert, List.mem_append, Option.mem_toList, ← or_assoc, ← hput]
  grind

theorem insert_kept (h : s.Kept d) {g : Registration}
    (hp : g.instancing = (s.classOf g.cls).instancing) (hg : g.shared = none) :
    ((s.addRegistration g).1.insertRegistration d (s.addRegistration g).2).1.Kept d := by
  obtain ⟨desk, hd⟩ := h.desk
  unfold Store.insertRegistration Store.addRegistration
  dsimp only
  generalize hu : ({ s with registrations := s.registrations.add g } : Store) = u
  have hsu : s.Enrols u := hu ▸ s.enrols_add g
  have hlu : u.Ledger (s.OnDesk d) [] := h.ledger.congr (hu ▸ Store.untouched_add hg s)
  have hnew : u.Admitted (fun _ => True) s.registrations.size := by
    refine ⟨?_, trivial, ?_⟩
    · rw [← hu, Roster.size_add]
      exact Nat.lt_succ_self _
    · rw [← hu, Store.registration_add, if_pos rfl]
      exact hp
  generalize hv : u.updateRegistration s.registrations.size (·.attach (u.name d)) = v
  have huv : u.Steady v := hv ▸ Store.steady_updateRegistration rfl
  have hlv : v.Ledger (s.OnDesk d) [] := hlu.congr (hv ▸ Store.untouched_updateRegistration rfl)
  have hdv : v.desk? d = some desk := by
    rw [huv.desk?, ← hu]
    exact hd
  have hdt := Store.desk?_of_updateDesk hdv (·.insert (u.registration s.registrations.size).name
    s.registrations.size)
  refine Store.Kept.of_enrols (P := fun _ => True) (huv.enrols.trans (v.enrols_updateDesk d _)) hdt
    (fun r hr => ?_) (hlv.congr (v.untouched_updateDesk d _)) fun r hr => ?_
  · rcases Desk.mem_insert.1 ((Store.onDesk_iff hdt).1 hr) with rfl | hr
    · exact hnew
    · exact ((h.admitted r ((Store.onDesk_iff hd).2 hr)).enrols hsu).mono fun _ => trivial
  · exact (Store.onDesk_iff hdt).2 (Desk.mem_insert.2 (.inr ((Store.onDesk_iff hd).1 hr)))

theorem register_kept (h : s.Kept d) (entry : Entry) : (s.register d entry).Kept d := by
  unfold Store.register
  split
  · exact h
  · rename_i g hg
    obtain ⟨desk, hd⟩ := h.desk
    obtain ⟨-, rfl⟩ := Store.newRegistration_eq_ok_iff.1 hg
    dsimp only [Store.addRegistration, Store.insertRegistration]
    exact insert_kept h rfl rfl

/-- A handler that is removed is torn down with its registration off the desk already. -/
theorem removeHandler_kept (h : s.Kept d) (name : String) :
    Ensures Beyond (removeHandler d name) (fun _ _ t => t.Kept d) s := by
  obtain ⟨desk, hd⟩ := h.desk
  simp only [removeHandler, ensures_bind, ensures_get, Store.handler?, hd, Option.bind_some]
  cases hf : desk.handlers.find? name with
  | none => exact ensures_pure.2 h
  | some r =>
    simp only [ensures_bind, ensures_modify]
    generalize hu : s.updateDesk d (fun d => { d with handlers := d.handlers.erase name }) = u
    have hdu : u.desk? d = some { desk with handlers := desk.handlers.erase name } := by
      rw [← hu, Store.desk?_of_updateDesk hd]
    have hl : u.Ledger (s.OnDesk d) [] := h.ledger.congr (hu ▸ s.untouched_updateDesk d _)
    have he : s.Enrols u := hu ▸ s.enrols_updateDesk d _
    refine ((teardown_spec hl r).and ((quiet_teardown r).steady u)).mono fun _ _ t h' => ?_
    obtain ⟨ht, hs⟩ := h'
    have hdt := (hs.desk? d).trans hdu
    refine ensures_pure.2 (Store.Kept.of_enrols (P := s.OnDesk d) (he.trans hs.enrols) hdt
      (fun r' hr' => ?_) ht fun r' hr' => ?_)
    · refine h.admitted r' ((Store.onDesk_iff hd).2 (((Store.onDesk_iff hdt).1 hr').imp_left fun hm => ?_))
      exact ((Directory.erase_sublist name desk.handlers).map _).subset hm
    · rcases (Store.onDesk_iff hd).1 hr'.1 with hm | hm
      · rcases Directory.mem_values_erase name hm with hm | hm
        · exact (Store.onDesk_iff hdt).2 (.inl hm)
        · rw [hf, Option.some.injEq] at hm
          exact absurd hm.symm hr'.2
      · exact (Store.onDesk_iff hdt).2 (.inr hm)

/-! ## Phases -/

/-- No slot is filled. -/
def Store.Vacant (s : Store) : Prop := ∀ r, (s.registration r).shared = none

theorem Store.Ledger.vacant {P : RegistrationId → Prop} (h : s.Ledger P []) (hP : ∀ r, ¬ P r) :
    s.Vacant := by
  intro r
  cases hr : (s.registration r).shared with
  | none => rfl
  | some i => exact absurd (h.shared r i hr).1 (hP r)

/-- What the hook of a phase establishes. -/
def Settles (d : ComponentId) (p : Phase) (t : Store) : Prop :=
  t.Kept d ∧ (p = .stop ∨ p = .destroy → t.Vacant)

/-- What holds of a set of contexts holds of one. -/
theorem contextHook_settles (h : s.Kept d) (p : Phase) :
    Ensures Beyond (contextHook d p) (fun _ _ t => Settles d p t) s := by
  obtain ⟨desk, hd⟩ := h.desk
  refine (contextHook_tends h.stocked hd List.mem_cons_self p).mono fun _ _ t ht => ?_
  refine ⟨ht.stocked.kept ht.desk, fun hp => (ht.emptied hp).vacant ?_⟩
  rintro r ⟨e, he, hne, -⟩
  exact hne (List.mem_singleton.1 he)

/-- A phase of a context, whatever state its lifecycle is in. -/
theorem phase_kept (h : s.Kept d) (p : Phase) :
    Ensures Beyond (phase d p) (fun _ _ t => t.Kept d ∧
      (p = .stop ∨ p = .destroy → (s.board.begin d p).2 = .ok true → t.Vacant)) s := by
  obtain ⟨desk, hd⟩ := h.desk
  simp only [phase, ensures_bind, ensures_get, height_of_desk hd]
  have hboard : ∀ (s : Store) b, Beyond s { s with board := b } := fun s b => ⟨b, s.gates, rfl⟩
  refine (Lifecycle.runPhase_ends (I := (·.Kept d)) (J := Settles d)
    (fun s b h => h.beyond (hboard s b)) (fun q s b h => ⟨h.1.beyond (hboard s b), h.2⟩)
    (fun _ _ h => h.1) (fun _ => rfl) (fun q s h => contextHook_settles h q) h).mono
    fun _ _ t ht => ⟨ht.1, fun hp hb => ?_⟩
  have hne : p ≠ .start := by
    rintro rfl
    simp at hp
  exact (ht.2 hne hb).2 hp

theorem Quiet.calm {α : Type} {x : Work α} (h : Quiet Beyond x) :
    Guarantees Beyond (Store.Notes fun a => a.isProcessing = false) x :=
  h.mono fun _ _ hq => hq.1.mono fun _ ha => ha.1

/-- Nothing is processed in a phase of a context. -/
theorem calm_phase (p : Phase) :
    Guarantees Beyond (Store.Notes fun a => a.isProcessing = false) (phase d p) :=
  guarantees_phase (fun _ _ => Store.notes_of_acts_eq rfl)
    (guarantees_contextHook (fun r => (quiet_teardown r).calm) (fun _ _ _ _ => Store.notes_of_acts_eq rfl)
      fun r => (quiet_preload r).calm) d p

theorem calm_removeHandler (name : String) :
    Guarantees Beyond (Store.Notes fun a => a.isProcessing = false) (removeHandler d name) :=
  guarantees_removeHandler (fun r => (quiet_teardown r).calm) (fun _ _ _ _ => Store.notes_of_acts_eq rfl) d name

end

/-! ## Histories -/

/-- What can be asked of a context. -/
inductive Op where
  | register (entry : Entry)
  | adjust (r : RegistrationId) (params : Params) (unavailable loadOnStartup : Bool)
      (hook : Option HookId)
  | setDefault (name : String)
  | remove (name : String)
  | dispatch (e : RequestEvent)
  | phase (p : Phase)

def Op.work (d : ComponentId) : Op → Work Unit
  | register entry => .modify (·.register d entry)
  | adjust r params unavailable loadOnStartup hook =>
    .modify (·.updateRegistration r fun g =>
      { g with params, unavailable, loadOnStartup, hook, cached := none })
  | setDefault name => .modify fun s => (s.setDefault d name).1
  | remove name => do let _ ← removeHandler d name
  | dispatch e => do let _ ← dispatchContext d e
  | phase p => do let _ ← Container.phase d p

/-- The stores that a context comes through, each operation run to its end before the next. -/
inductive History (d : ComponentId) : Store → Prop where
  | start {s : Store} {desk : Desk} : s.desk? d = some desk → desk.handlers = [] →
      desk.retired = [] → s.registrations = {} → s.instances = {} → s.acts = [] → History d s
  | beyond {s t : Store} : History d s → Beyond s t → History d t
  | step {s t : Store} (op : Op) {own : List (Store × Store)} : History d s →
      Runs Beyond (op.work d) s own () t → History d t

section

variable {s t : Store} {d : ComponentId}

theorem acts_register (s : Store) (d : ComponentId) (entry : Entry) :
    (s.register d entry).acts = s.acts := by
  unfold Store.register
  split <;> rfl

theorem setDefault_kept (h : s.Kept d) (name : String) :
    (s.setDefault d name).1.Kept d ∧ (s.setDefault d name).1.acts = s.acts := by
  unfold Store.setDefault
  split
  · exact ⟨h, rfl⟩
  · obtain ⟨desk, hd⟩ := h.desk
    have hdt := Store.desk?_of_updateDesk hd fun d => { d with defaultHandler := some name }
    refine ⟨Store.Kept.of_enrols (P := s.OnDesk d) (s.enrols_updateDesk d _) hdt (fun r hr => ?_)
      (h.ledger.congr (s.untouched_updateDesk d _)) fun r hr => ?_, rfl⟩
    · exact h.admitted r ((Store.onDesk_iff hd).2 ((Store.onDesk_iff hdt).1 hr))
    · exact (Store.onDesk_iff hdt).2 ((Store.onDesk_iff hd).1 hr)

/-- A single write that changes neither the ledger nor what is noted. -/
theorem modify_kept {f : Store → Store} {op : Op} (hf : (f s).Kept d) (ha : (f s).acts = s.acts)
    (hop : ∀ p, op ≠ .phase p) :
    Ensures Beyond (.modify f : Work Unit) (fun own _ t => t.Kept d ∧ (∀ w ∈ own, Fair d w) ∧
      ∀ p, op = .phase p → p = .stop ∨ p = .destroy →
        (s.board.begin d p).2 = .ok true → t.Vacant) s := by
  refine ensures_modify.2 ⟨hf, ?_, fun p hp => absurd hp (hop p)⟩
  simp only [List.forall_mem_singleton]
  exact fair_of_notes (Store.notes_of_acts_eq ha)

theorem op_kept (h : s.Kept d) (op : Op) :
    Ensures Beyond (op.work d) (fun own _ t => t.Kept d ∧ (∀ w ∈ own, Fair d w) ∧
      ∀ p, op = .phase p → p = .stop ∨ p = .destroy →
        (s.board.begin d p).2 = .ok true → t.Vacant) s := by
  cases op with
  | register entry =>
    exact modify_kept (register_kept h entry) (acts_register s d entry) (by simp)
  | adjust r params unavailable loadOnStartup hook =>
    refine modify_kept ?_ rfl (by simp)
    exact h.steady (Store.steady_updateRegistration rfl)
      (h.ledger.congr (Store.untouched_updateRegistration rfl))
  | setDefault name =>
    exact modify_kept (setDefault_kept h name).1 (setDefault_kept h name).2 (by simp)
  | remove name =>
    refine ensures_bind.2 (((removeHandler_kept h name).and (calm_removeHandler name s)).mono
      fun own _ t h' => ensures_pure.2 ⟨h'.1, ?_, by simp⟩)
    rw [List.append_nil]
    exact fun w hm => fair_of_notes (h'.2 w hm)
  | dispatch e =>
    refine ensures_bind.2 ((dispatchContext_kept h e).mono fun own _ t h' =>
      ensures_pure.2 ⟨h'.1, ?_, by simp⟩)
    rw [List.append_nil]
    exact h'.2
  | phase p =>
    refine ensures_bind.2 (((phase_kept h p).and (calm_phase p s)).mono
      fun own _ t h' => ensures_pure.2 ⟨h'.1.1, ?_, ?_⟩)
    · rw [List.append_nil]
      exact fun w hm => fair_of_notes (h'.2 w hm)
    · intro q hq
      obtain rfl := Op.phase.inj hq
      exact h'.1.2

theorem History.kept (h : History d s) : s.Kept d := by
  induction h with
  | @start s desk hd hh hr hg hi ha =>
    have hon : ∀ r, ¬ s.OnDesk d r := fun r hr' => by
      simpa [hh, hr, Directory.values] using (Store.onDesk_iff hd).1 hr'
    have hnone : ∀ i, s.instance? i = none := fun i => by
      simp [Store.instance?, hi, Roster.get?]
    have hno : ∀ i, ¬ s.IsStateless i := fun i h => Store.instance?_ne_none h (hnone i)
    refine ⟨⟨desk, hd⟩, fun r hr' => absurd hr' (hon r), fun i h => absurd h (hno i), ?_, by simp, ?_⟩
    · intro r i hr'
      rw [Store.registration, hg] at hr'
      cases hr'
    · intro i m _
      simp [Store.marks, ha]
  | beyond _ hb ih => exact ih.beyond hb
  | step op _ hr ih => exact (op_kept ih op _ _ _ hr).1

/-- The ledger of a context. After any history every initialized shared instance is live or dead,
and one whose `init` failed is in no slot and was neither processed nor destroyed. Whatever is asked
next, what is processed on the way is live then; and where a stop or a destruction gets to run its
hook, no instance is live after it. -/
theorem history_accounts (h : History d s) :
    (∀ i, s.IsStateless i → 0 < s.marks i .initialized → s.Live d i ∨ s.Dead i) ∧
    (∀ i, s.IsStateless i → 0 < s.marks i .failed →
      s.slots i = 0 ∧ s.marks i .processed = 0 ∧ s.marks i .destroyed = 0) ∧
    ∀ (op : Op) (own : List (Store × Store)) (t : Store), Runs Beyond (op.work d) s own () t →
      (∀ w ∈ own, ∀ i, Starts w i → w.1.IsStateless i → w.1.Live d i) ∧
      ∀ p, op = .phase p → p = .stop ∨ p = .destroy → (s.board.begin d p).2 = .ok true →
        ∀ i, ¬ t.Live d i := by
  have hk := h.kept
  refine ⟨fun i hi hn => ?_, fun i hi hn => ?_, fun op own t hr => ?_⟩
  · obtain ⟨ho, hf, -, -, -, -⟩ := hk.ledger.balanced i hi
    simp at ho hf
    by_cases hs : s.slots i = 0
    · exact .inr ⟨by omega, hs⟩
    · obtain ⟨r, hr⟩ := Store.exists_of_slots_pos (Nat.pos_of_ne_zero hs)
      exact .inl ⟨by omega, by omega, r, hr, (hk.ledger.shared r i hr).1⟩
  · obtain ⟨ho, hf, -, -, -, hq⟩ := hk.ledger.balanced i hi
    simp at ho hf
    omega
  · obtain ⟨-, hfair, hstop⟩ := op_kept hk op _ _ _ hr
    refine ⟨hfair, fun p hp hph hb i hl => ?_⟩
    obtain ⟨-, -, r, hr, -⟩ := hl
    rw [hstop p hp hph hb r] at hr
    cases hr

end

/-- A context that has started, with nothing registered, and one stateless class. -/
def sampleContext : Store where
  board := { managers := [{ name := "context", state := .started }] }
  components := ⟨[{ kind := .context { request := .any, response := .any } }]⟩
  classes := ⟨[{ HandlerClass.idle with instancing := .stateless }]⟩

/-- An instance lives from the request that built it to the stop that ends it. -/
theorem history_accounts_sample :
    ∃ s own t, History 0 s ∧ s.Live 0 0 ∧ Runs Beyond ((Op.phase .stop).work 0) s own () t ∧
      ∀ i, ¬ t.Live 0 i := by
  have refl : ∀ s, Beyond s s := fun s => ⟨s.board, s.gates, rfl⟩
  have h₀ : History 0 sampleContext := .start rfl rfl rfl rfl rfl rfl
  have hruns : ∃ s₁ s₂ t,
      ((Op.register { name := "echo", cls := 0 }).work 0).run sampleContext = .finished () s₁ ∧
      ((Op.dispatch { request := .text "hi", response := .reply "", handler := some "echo" }).work 0).run
        s₁ = .finished () s₂ ∧
      ((Op.phase .stop).work 0).run s₂ = .finished () t ∧
      s₂.IsStateless 0 ∧ s₂.marks 0 .initialized = 1 ∧ s₂.marks 0 .destroyed = 0 ∧
      (s₂.board.begin 0 .stop).2 = .ok true :=
    ⟨_, _, _, rfl, rfl, rfl, ⟨_, rfl, rfl⟩, rfl, rfl, rfl⟩
  obtain ⟨s₁, s₂, t, h₁, h₂, h₃, hi, hn, hd, hb⟩ := hruns
  obtain ⟨own₁, hr₁⟩ := Runs.of_run refl h₁
  obtain ⟨own₂, hr₂⟩ := Runs.of_run refl h₂
  obtain ⟨own₃, hr₃⟩ := Runs.of_run refl h₃
  have h : History 0 s₂ := (h₀.step _ hr₁).step _ hr₂
  obtain ⟨hlive, -, hops⟩ := history_accounts h
  refine ⟨s₂, own₃, t, h, (hlive 0 hi (by omega)).resolve_right fun hdead => ?_, hr₃, ?_⟩
  · rw [hdead.1] at hd
    cases hd
  · exact (hops _ _ _ hr₃).2 .stop rfl (.inl rfl) hb

end Switchboard.Container
