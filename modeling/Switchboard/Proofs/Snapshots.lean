import Switchboard.Proofs.Traces

/-!
# Snapshots of a configuration

The configuration that a registration hands out, over its life in a container. An instruction sets or removes
a parameter, puts the registration on a desk, or asks for the configuration; a `Career` is what becomes of a
registration by instructions, while the container goes on with other work. The snapshot that is kept is
current and its number is taken (`Coherent`). An instruction that changes something throws it away, and the
next one is built with a number that was never given before (`Past`). So a snapshot says what the instructions
so far come to, and two of them are one exactly when nothing was changed in between. Dispatches and phases
ask for configurations and change none (`Heeds`).
-/

namespace Switchboard

/-! ## Instructions -/

/-- What is asked of a registration about its configuration. -/
inductive Instruction (κ : Type) where
  | setParam (name value : String)
  | removeParam (name : String)
  | attach (context : κ)
  | config

namespace Instruction

variable {κ ι : Type}

def map (f : κ → ι) : Instruction κ → Instruction ι
  | setParam name value => setParam name value
  | removeParam name => removeParam name
  | attach context => attach (f context)
  | config => config

def isChange : Instruction κ → Bool
  | config => false
  | _ => true

/-- What a parameter is after an instruction about it: a value, or nothing. -/
def setting? (key : String) : Instruction κ → Option (Option String)
  | setParam name value => if name = key then some (some value) else none
  | removeParam name => if name = key then some none else none
  | _ => none

def context? : Instruction κ → Option κ
  | attach context => some context
  | _ => none

theorem eq_config_of_not_isChange {i : Instruction κ} (h : i.isChange = false) : i = config := by
  cases i with
  | config => rfl
  | setParam | removeParam | attach => cases h

end Instruction

namespace Registration

def obey (g : Registration) : Instruction String → Registration
  | .setParam name value => g.setParam name value
  | .removeParam name => g.removeParam name
  | .attach context => g.attach context
  | .config => g.config.1

/-- What becomes of a registration by instructions, the latest first. Other work leaves the dossier alone. -/
inductive Career (g : Registration) : List (Instruction String) → Registration → Prop where
  | start : Career g [] g
  | instruct {log : List (Instruction String)} {g' : Registration} (i : Instruction String) :
      Career g log g' → Career g (i :: log) (g'.obey i)
  | meanwhile {log : List (Instruction String)} {g' g'' : Registration} :
      Career g log g' → g''.dossier = g'.dossier → Career g log g''

section

variable {g g' : Registration} {x : Snapshot} {i : Instruction String} {log : List (Instruction String)} {n : Nat}

/-! ## What the instructions come to -/

theorem name_obey (g : Registration) (i : Instruction String) : (g.obey i).name = g.name := by
  cases i with
  | config => rw [obey, fst_config]
  | setParam | removeParam | attach => rfl

theorem context_obey (g : Registration) (i : Instruction String) :
    (g.obey i).context = i.context?.or g.context := by
  cases i with
  | config =>
    rw [obey, fst_config]
    rfl
  | setParam | removeParam | attach => rfl

theorem get?_params_obey (g : Registration) (i : Instruction String) (key : String) :
    (g.obey i).params.get? key = (i.setting? key).getD (g.params.get? key) := by
  cases i with
  | setParam name value =>
    refine (g.params.get?_insert name key value).trans ?_
    rw [Instruction.setting?, apply_ite (Option.getD · _)]
    rfl
  | removeParam name =>
    refine (g.params.get?_erase name key).trans ?_
    rw [Instruction.setting?, apply_ite (Option.getD · _)]
    rfl
  | attach => rfl
  | config =>
    rw [obey, fst_config]
    rfl

theorem Career.name_eq (h : g.Career log g') : g'.name = g.name := by
  induction h with
  | start => rfl
  | instruct i _ ih => rw [name_obey, ih]
  | meanwhile _ hd ih => exact (congrArg Registration.name hd).trans ih

theorem Career.context_eq (h : g.Career log g') :
    g'.context = (log.findSome? Instruction.context?).or g.context := by
  induction h with
  | start => rfl
  | instruct i _ ih =>
    rw [context_obey, ih, List.findSome?_cons]
    cases i.context? with
    | none => rfl
    | some context => rfl
  | meanwhile _ hd ih => exact (congrArg Registration.context hd).trans ih

theorem Career.get?_params_eq (h : g.Career log g') (key : String) :
    g'.params.get? key = (log.findSome? (Instruction.setting? key)).getD (g.params.get? key) := by
  induction h with
  | start => rfl
  | instruct i _ ih =>
    rw [get?_params_obey, ih, List.findSome?_cons]
    cases i.setting? key with
    | none => rfl
    | some setting => rfl
  | meanwhile _ hd ih => exact (congrArg (·.params.get? key) hd).trans ih

/-! ## The snapshot that is kept -/

/-- The snapshot that is kept, if there is one, is current, and its number is taken. -/
structure Coherent (g : Registration) : Prop where
  current : g.IsCurrent
  numbered : ∀ snapshot, g.cached = some snapshot → snapshot.serial < g.snapshots

/-- The number belongs to a snapshot that will not be handed out again. -/
structure Past (n : Nat) (g : Registration) : Prop where
  taken : n < g.snapshots
  kept : ∀ snapshot, g.cached = some snapshot → n < snapshot.serial

theorem obey_of_isChange (h : i.isChange = true) (g : Registration) :
    (g.obey i).cached = none ∧ (g.obey i).snapshots = g.snapshots := by
  cases i with
  | setParam | removeParam | attach => exact ⟨rfl, rfl⟩
  | config => cases h

theorem coherent_of_none (h : g.cached = none) : g.Coherent where
  current := isCurrent_of_none h
  numbered snapshot hs := by rw [h] at hs; cases hs

theorem Coherent.of_dossier (h : g.Coherent) (hd : g'.dossier = g.dossier) : g'.Coherent := by
  have hdossier : g'.dossier.Coherent := hd ▸ ⟨h.current, h.numbered⟩
  exact ⟨hdossier.current, hdossier.numbered⟩

theorem Coherent.config (h : g.Coherent) : g.config.1.Coherent := by
  cases hc : g.cached with
  | some x => rwa [config_of_some hc]
  | none =>
    refine ⟨h.current.config.2, fun snapshot hs => ?_⟩
    rw [config_of_none hc] at hs ⊢
    exact Option.some.inj hs ▸ Nat.lt_succ_self _

theorem Coherent.obey (h : g.Coherent) (i : Instruction String) : (g.obey i).Coherent := by
  cases hi : i.isChange with
  | true => exact coherent_of_none (obey_of_isChange hi g).1
  | false => exact Instruction.eq_config_of_not_isChange hi ▸ h.config

theorem Career.coherent (h : g.Career log g') (hg : g.Coherent) : g'.Coherent := by
  induction h with
  | start => exact hg
  | instruct i _ ih => exact ih.obey i
  | meanwhile _ hd ih => exact ih.of_dossier hd

theorem Past.of_dossier (h : g.Past n) (hd : g'.dossier = g.dossier) : g'.Past n := by
  have hdossier : g'.dossier.Past n := hd ▸ ⟨h.taken, h.kept⟩
  exact ⟨hdossier.taken, hdossier.kept⟩

theorem past_of_none (h : g.cached = none) (hn : n < g.snapshots) : g.Past n where
  taken := hn
  kept snapshot hs := by rw [h] at hs; cases hs

theorem Past.lt_serial (h : g.Past n) : n < g.config.2.serial := by
  cases hc : g.cached with
  | some x => exact config_of_some hc ▸ h.kept x hc
  | none => exact config_of_none hc ▸ h.taken

theorem Past.config (h : g.Past n) : g.config.1.Past n := by
  cases hc : g.cached with
  | some x => rwa [config_of_some hc]
  | none =>
    refine ⟨?_, fun snapshot hs => ?_⟩
    · rw [config_of_none hc]
      exact Nat.lt_succ_of_lt h.taken
    · rw [cached_config] at hs
      exact Option.some.inj hs ▸ h.lt_serial

theorem Past.obey (h : g.Past n) (i : Instruction String) : (g.obey i).Past n := by
  cases hi : i.isChange with
  | false => exact Instruction.eq_config_of_not_isChange hi ▸ h.config
  | true =>
    obtain ⟨hcached, hsnapshots⟩ := obey_of_isChange hi g
    exact past_of_none hcached (hsnapshots ▸ h.taken)

theorem Career.config_eq (h : g.Career log g') (hg : g'.Coherent) :
    g'.config.2.config.handler = g.name ∧
      g'.config.2.config.context = ((log.findSome? Instruction.context?).or g.context).getD "" ∧
      g'.config.2.config.params = g'.params := by
  rw [hg.current.config.1]
  exact ⟨h.name_eq, congrArg (·.getD "") h.context_eq, rfl⟩

/-- What is kept stays as long as nothing is changed, and is not handed out again after that. -/
theorem Career.kept_or_past (h : g.Career log g') (hg : g.Coherent) (hx : g.cached = some x) :
    (∀ i ∈ log, i.isChange = false) ∧ g'.cached = some x ∨
      (∃ i ∈ log, i.isChange = true) ∧ g'.Past x.serial := by
  induction h with
  | start => exact .inl ⟨by simp, hx⟩
  | meanwhile _ hd ih =>
    exact ih.imp (.imp_right (congrArg Registration.cached hd).trans) (.imp_right (·.of_dossier hd))
  | @instruct log g' i hcareer ih =>
    rcases ih with ⟨hlog, hkept⟩ | ⟨⟨c, hc, hchange⟩, hpast⟩
    · cases hi : i.isChange with
      | false =>
        obtain rfl := Instruction.eq_config_of_not_isChange hi
        refine .inl ⟨List.forall_mem_cons.2 ⟨hi, hlog⟩, ?_⟩
        show g'.config.1.cached = some x
        rwa [config_of_some hkept]
      | true =>
        obtain ⟨hcached, hsnapshots⟩ := obey_of_isChange hi g'
        have htaken : x.serial < (g'.obey i).snapshots := hsnapshots ▸ (hcareer.coherent hg).numbered x hkept
        exact .inr ⟨⟨i, List.mem_cons_self, hi⟩, past_of_none hcached htaken⟩
    · exact .inr ⟨⟨c, List.mem_cons_of_mem i hc, hchange⟩, hpast.obey i⟩

/-- Two snapshots are one exactly when nothing was changed after the first was handed out. -/
theorem Career.serial_eq_iff (h : g.config.1.Career log g') (hg : g.Coherent) :
    g'.config.2.serial = g.config.2.serial ↔ ∀ i ∈ log, i.isChange = false := by
  rcases h.kept_or_past hg.config g.cached_config with ⟨hlog, hkept⟩ | ⟨⟨i, hi, hchange⟩, hpast⟩
  · rw [config_of_some hkept]
    exact iff_of_true rfl hlog
  · refine iff_of_false (Nat.ne_of_gt hpast.lt_serial) fun hlog => ?_
    rw [hlog i hi] at hchange
    cases hchange

/-- A number stands for one snapshot. -/
theorem Career.config_eq_of_serial_eq (h : g.config.1.Career log g') (hg : g.Coherent)
    (hserial : g'.config.2.serial = g.config.2.serial) : g'.config.2 = g.config.2 := by
  rcases h.kept_or_past hg.config g.cached_config with ⟨-, hkept⟩ | ⟨-, hpast⟩
  · rw [config_of_some hkept]
  · exact absurd hserial (Nat.ne_of_gt hpast.lt_serial)

end

end Registration

/-! ## Registrations of a container -/

namespace Container

open Activity

namespace Store

def carryOut (s : Store) (r : RegistrationId) : Instruction ComponentId → Store
  | .setParam name value => s.updateRegistration r (·.setParam name value)
  | .removeParam name => s.updateRegistration r (·.removeParam name)
  | .attach d => (s.insertRegistration d r).1
  | .config => (s.configure r).1

/-- What is handed out to whoever asks for the configuration. -/
def snapshot (s : Store) (r : RegistrationId) : Snapshot := (s.registration r).config.2

def dossier? (s : Store) (r : RegistrationId) : Option Registration :=
  (s.registrations.get? r).map (·.dossier)

/-- The stores that come from instructions to a registration, the latest first, a context noted by its name at
the time. Anything else may be done in the container meanwhile. -/
inductive Career (r : RegistrationId) (s : Store) : List (Instruction String) → Store → Prop where
  | start : Career r s [] s
  | instruct {log : List (Instruction String)} {t : Store} (i : Instruction ComponentId) :
      Career r s log t → Career r s (i.map t.name :: log) (t.carryOut r i)
  | meanwhile {log : List (Instruction String)} {t u : Store} :
      Career r s log t → u.dossier? r = t.dossier? r → Career r s log u

variable {s t u : Store} {r r' : RegistrationId} {log log' : List (Instruction String)}

theorem size_carryOut (s : Store) (r : RegistrationId) (i : Instruction ComponentId) :
    (s.carryOut r i).registrations.size = s.registrations.size := by
  cases i <;> exact Roster.size_update ..

theorem registration_carryOut (hr : r < s.registrations.size) (i : Instruction ComponentId) :
    (s.carryOut r i).registration r = (s.registration r).obey (i.map s.name) := by
  have hupdate : ∀ f, (s.updateRegistration r f).registration r = f (s.registration r) := fun f => by
    rw [registration_updateRegistration, if_pos ⟨rfl, hr⟩]
  cases i <;> exact hupdate _

/-- What handlers were initialized with is theirs. -/
theorem instances_carryOut (s : Store) (r : RegistrationId) (i : Instruction ComponentId) :
    (s.carryOut r i).instances = s.instances := by
  cases i <;> rfl

theorem Career.registration (h : s.Career r log t) (hr : r < s.registrations.size) :
    r < t.registrations.size ∧ (s.registration r).Career log (t.registration r) := by
  induction h with
  | start => exact ⟨hr, .start⟩
  | instruct i _ ih =>
    refine ⟨(size_carryOut ..).symm ▸ ih.1, ?_⟩
    rw [registration_carryOut ih.1]
    exact .instruct _ ih.2
  | @meanwhile log t u _ hd ih =>
    obtain ⟨g, hg⟩ := Option.isSome_iff_exists.1 ((Roster.isSome_get? _ _).2 ih.1)
    rw [dossier?, dossier?, hg, Option.map_some] at hd
    obtain ⟨g', hg', hd⟩ := Option.map_eq_some_iff.1 hd
    refine ⟨Roster.lt_size_of_get? hg', .meanwhile ih.2 ?_⟩
    rwa [Store.registration, Store.registration, Roster.getD, Roster.getD, hg, hg']

/-- What comes after the configuration was handed out. -/
theorem Career.of_configure (h : (s.configure r).1.Career r log t) (hr : r < s.registrations.size) :
    (s.registration r).config.1.Career log (t.registration r) := by
  have hsize : r < (s.carryOut r .config).registrations.size := (size_carryOut ..).symm ▸ hr
  have hasked : (s.carryOut r .config).registration r = (s.registration r).config.1 :=
    registration_carryOut hr .config
  exact hasked ▸ (h.registration hsize).2

theorem Career.trans (h : s.Career r log t) (k : t.Career r log' u) : s.Career r (log' ++ log) u := by
  induction k with
  | start => exact h
  | instruct i _ ih => exact .instruct i ih
  | meanwhile _ hd ih => exact .meanwhile ih hd

theorem dossier?_updateRegistration_of_ne {f : Registration → Registration} (h : r' ≠ r) (s : Store) :
    (s.updateRegistration r' f).dossier? r = s.dossier? r := by
  rw [dossier?, updateRegistration, Roster.get?_update, if_neg h, dossier?]

/-- Whatever else is written of a registration, such as a flag or that it is in use. -/
theorem dossier?_updateRegistration {f : Registration → Registration} (hf : ∀ g, (f g).dossier = g.dossier)
    (r' : RegistrationId) (s : Store) : (s.updateRegistration r' f).dossier? r = s.dossier? r := by
  by_cases h : r' = r
  · rw [dossier?, updateRegistration, Roster.get?_update, if_pos h, Option.map_map]
    exact congrArg (Option.map · _) (funext hf)
  · exact dossier?_updateRegistration_of_ne h s

theorem registration_of_addRegistration {g : Registration} (h : s.addRegistration g = (t, r)) :
    r < t.registrations.size ∧ t.registration r = g := by
  obtain ⟨rfl, rfl⟩ := Prod.mk.inj h
  exact ⟨(Roster.size_add ..).symm ▸ Nat.lt_succ_self _, by rw [registration_add, if_pos rfl]⟩

/-! ## Dispatches and phases -/

/-- The configuration of the registration is asked for at most. -/
def Heeds (r : RegistrationId) (s t : Store) : Prop :=
  ∃ log, s.Career r log t ∧ ∀ i ∈ log, i.isChange = false

theorem heeds_of_dossier (h : t.dossier? r = s.dossier? r) : s.Heeds r t :=
  ⟨[], .meanwhile .start h, by simp⟩

theorem Heeds.refl (s : Store) : s.Heeds r s := heeds_of_dossier rfl

theorem Heeds.trans (s t u : Store) (h : s.Heeds r t) (k : t.Heeds r u) : s.Heeds r u := by
  obtain ⟨log, hlog, hasked⟩ := h
  obtain ⟨log', hlog', hasked'⟩ := k
  exact ⟨log' ++ log, hlog.trans hlog', List.forall_mem_append.2 ⟨hasked', hasked⟩⟩

theorem heeds_configure (s : Store) (r' r : RegistrationId) : s.Heeds r (s.configure r').1 := by
  by_cases h : r' = r
  · subst h
    exact ⟨[.config], .instruct .config .start, List.forall_mem_singleton.2 rfl⟩
  · exact heeds_of_dossier (dossier?_updateRegistration_of_ne h s)

theorem permits_heeds (r' r : RegistrationId) : Permits r' (Heeds r) where
  refl := Heeds.refl
  trans := Heeds.trans _ _ _
  note _ _ _ := heeds_of_dossier rfl
  measure _ _ := heeds_of_dossier rfl
  build _ _ := heeds_of_dossier rfl
  handle _ _ _ _ := heeds_of_dossier rfl
  register s _ _ hf := heeds_of_dossier (dossier?_updateRegistration hf r' s)
  configure s := heeds_configure s r' r

/-- What was handed out is handed out again. -/
theorem Heeds.snapshot_eq (h : (s.configure r).1.Heeds r t) (hr : r < s.registrations.size)
    (hg : (s.registration r).Coherent) : t.snapshot r = s.snapshot r := by
  obtain ⟨log, hlog, hasked⟩ := h
  have hcareer := hlog.of_configure hr
  exact hcareer.config_eq_of_serial_eq hg ((hcareer.serial_eq_iff hg).2 hasked)

end Store

section

variable {rely : Store → Store → Prop}

theorem heeds_dispatch (r : RegistrationId) (c : ComponentId) (e : RequestEvent) :
    Guarantees rely (Store.Heeds r) (dispatch c e) := by
  have hinvoke : ∀ r' e, Guarantees rely (Store.Heeds r) (invoke r' e) := fun r' e =>
    permits_invoke (Store.permits_heeds r' r) (guarantees_process fun _ _ _ _ h =>
      Store.heeds_of_dossier (by rw [Store.dossier?, h, Store.dossier?])) e
  have hconsult : ∀ g e, Guarantees rely (Store.Heeds r) (consult g e) :=
    guarantees_consult (fun _ _ _ _ => Store.heeds_of_dossier rfl) fun _ _ _ => Store.heeds_of_dossier rfl
  exact guarantees_dispatch hinvoke hconsult (fun _ _ => Store.heeds_of_dossier rfl) c e

theorem heeds_phase (r : RegistrationId) (c : ComponentId) (p : Lifecycle.Phase) :
    Guarantees rely (Store.Heeds r) (phase c p) := by
  have hteardown : ∀ r', Guarantees rely (Store.Heeds r) (teardown r') := fun r' =>
    permits_teardown (Store.permits_heeds r' r)
  have hpreload : ∀ r', Guarantees rely (Store.Heeds r) (preload r') := fun r' =>
    permits_preload (Store.permits_heeds r' r)
  exact guarantees_phase (fun _ _ => Store.heeds_of_dossier rfl)
    (guarantees_contextHook hteardown (fun _ _ _ _ => Store.heeds_of_dossier rfl) hpreload) c p

end

/-- Whatever is dispatched and whatever phases run beside one another, a snapshot stays the one that is
handed out. -/
theorem snapshot_stays {s : Store} {r : RegistrationId} (hr : r < s.registrations.size)
    (hg : (s.registration r).Coherent) :
    (∀ c e, Ensures (Store.Heeds r) (dispatch c e) (fun _ _ t => t.snapshot r = s.snapshot r) (s.configure r).1) ∧
    ∀ c p, Ensures (Store.Heeds r) (phase c p) (fun _ _ t => t.snapshot r = s.snapshot r) (s.configure r).1 := by
  have hframe : ∀ {α : Type} {x : Work α}, Guarantees (Store.Heeds r) (Store.Heeds r) x →
      Ensures (Store.Heeds r) x (fun _ _ t => t.snapshot r = s.snapshot r) (s.configure r).1 := fun h =>
    (h.frame Store.Heeds.refl Store.Heeds.trans (fun _ _ => id) _).mono fun _ _ _ ht => ht.snapshot_eq hr hg
  exact ⟨fun c e => hframe (heeds_dispatch r c e), fun c p => hframe (heeds_phase r c p)⟩

/-- To initialize a handler is to ask for the configuration, as long as nobody else does anything about it. -/
theorem setUp_career {rely : Store → Store → Prop} {s t : Store} {r : RegistrationId}
    {log : List (Instruction String)} (hrely : ∀ s t, rely s t → t.dossier? r = s.dossier? r)
    (h : s.Career r log t) (n : InstanceId) :
    Ensures rely (setUp r n) (fun _ _ u => s.Career r (.config :: log) u) t := by
  simp only [setUp, runInit, ensures_bind, ensures_act, ensures_yield]
  intro u hu
  have hasked : s.Career r (.config :: log) (t.carryOut r .config) := h.instruct .config
  have hbegun : u.dossier? r = (t.carryOut r .config).dossier? r := (hrely _ _ hu).trans rfl
  exact (hasked.meanwhile hbegun).meanwhile rfl

/-- Whatever was done in a container, a handler made now is initialized with what its registration says now. -/
theorem Store.Arises.configure_eq {s : Store} (h : s.Arises) (r : RegistrationId) :
    (s.configure r).2 = (s.registration r).currentConfig :=
  (h.tidy.current r).config.1

/-- The configuration is never stale. A registration hands out its name, the name of the context that it was
put into last, and each parameter as the last instruction about it left it. What it hands out next is the same
snapshot exactly if nothing was changed in between. A snapshot that is met again says what it said before,
whatever happened meanwhile, and no instruction touches what a handler was initialized with. -/
theorem configuration_never_stale {s₀ s t u : Store} {name : String} {cls : ClassId} {g : Registration}
    {params : Params} {hook : Option HookId} {loadOnStartup : Bool} {r : RegistrationId}
    {before between : List (Instruction String)} (made : s₀.newRegistration name cls = .ok g)
    (added : s₀.addRegistration { g with params, hook, loadOnStartup } = (s, r))
    (h : s.Career r before t) (k : (t.configure r).1.Career r between u) :
    ((t.snapshot r).config.handler = name ∧
      (t.snapshot r).config.context = (before.findSome? Instruction.context?).getD "" ∧
      (t.snapshot r).config.params = (t.registration r).params ∧
      ∀ key, (t.snapshot r).config.params.get? key =
        (before.findSome? (Instruction.setting? key)).getD (params.get? key)) ∧
    ((u.snapshot r).serial = (t.snapshot r).serial ↔ ∀ i ∈ between, i.isChange = false) ∧
    ((u.snapshot r).serial = (t.snapshot r).serial → u.snapshot r = t.snapshot r) ∧
    ∀ (i : Instruction ComponentId) (n : InstanceId), (t.carryOut r i).instance? n = t.instance? n := by
  obtain ⟨-, rfl⟩ := Store.newRegistration_eq_ok_iff.1 made
  obtain ⟨hr, hfirst⟩ := Store.registration_of_addRegistration added
  obtain ⟨ht, hbefore⟩ := h.registration hr
  have hbetween := k.of_configure ht
  rw [hfirst] at hbefore
  have hcoherent := hbefore.coherent (Registration.coherent_of_none rfl)
  obtain ⟨hhandler, hcontext, hparams⟩ := hbefore.config_eq hcoherent
  refine ⟨⟨hhandler, ?_, hparams, fun key => ?_⟩, hbetween.serial_eq_iff hcoherent,
    hbetween.config_eq_of_serial_eq hcoherent, fun i n => ?_⟩
  · exact hcontext.trans (by rw [Option.or_none])
  · exact (congrArg (·.get? key) hparams).trans (hbefore.get?_params_eq key)
  · rw [Store.instance?, Store.instances_carryOut, Store.instance?]

/-- A registration is put into a context and given a parameter. It is marked as unavailable meanwhile, which is
nothing to its configuration; then the parameter is changed. -/
theorem configuration_never_stale_sample :
    ∃ g s t u v, sampleContext.newRegistration "echo" 0 = .ok g ∧
      sampleContext.addRegistration { g with params := .empty, hook := none, loadOnStartup := true } = (s, 0) ∧
      s.Career 0 [.setParam "greeting" "hi", .attach "context"] t ∧
      (t.configure 0).1.Career 0 [.config] u ∧ (u.registration 0).unavailable = true ∧
      (t.configure 0).1.Career 0 [.setParam "greeting" "hello", .config] v ∧
      (t.snapshot 0).config.context = "context" ∧
      (t.snapshot 0).config.params.get? "greeting" = some "hi" ∧
      u.snapshot 0 = t.snapshot 0 ∧ (v.snapshot 0).serial ≠ (t.snapshot 0).serial := by
  obtain ⟨g, s, t, u, v, made, added, h, hu, hflag, hv⟩ : ∃ g s t u v,
      sampleContext.newRegistration "echo" 0 = .ok g ∧
      sampleContext.addRegistration { g with params := .empty, hook := none, loadOnStartup := true } = (s, 0) ∧
      s.Career 0 [.setParam "greeting" "hi", .attach "context"] t ∧
      (t.configure 0).1.Career 0 [.config] u ∧ (u.registration 0).unavailable = true ∧
      (t.configure 0).1.Career 0 [.setParam "greeting" "hello", .config] v :=
    ⟨_, _, _, _, _, rfl, rfl,
      .instruct (.setParam "greeting" "hi") (.instruct (.attach 0) .start),
      .meanwhile (.instruct .config .start) (Store.dossier?_updateRegistration
        (f := fun g => { g with unavailable := true }) (fun _ => rfl) 0 _), rfl,
      .instruct (.setParam "greeting" "hello") (.instruct .config .start)⟩
  obtain ⟨⟨-, hcontext, -, hparams⟩, hsame, hkeeps, -⟩ := configuration_never_stale made added h hu
  obtain ⟨-, hother, -⟩ := configuration_never_stale made added h hv
  have hlater : (u.snapshot 0).serial = (t.snapshot 0).serial :=
    hsame.2 (by simp [Instruction.isChange])
  refine ⟨g, s, t, u, v, made, added, h, hu, hflag, hv, hcontext, ?_, hkeeps hlater, fun heq => ?_⟩
  · rw [hparams]
    simp [Instruction.setting?]
  · have hnone := hother.1 heq (.setParam "greeting" "hello") List.mem_cons_self
    cases hnone

end Container
end Switchboard
