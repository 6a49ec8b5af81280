import Switchboard.Proofs.Completion
import Switchboard.Proofs.Traces

/-!
# Requests with an instance of their own

What a dispatch comes to that is let through to a handler whose instances are not shared. From the
moment the request is counted until it gives its instance back, `Logs acts s t` says exactly what is
noted, stage by stage; `Handling` lists the courses this can take, each with the outcome of the
dispatch. The instance is new, and loose when the dispatch ends, so what is noted in between is all
that ever will be noted about it.
-/

namespace Switchboard

/-- The registration apart from the snapshots handed out. -/
def Registration.core (g : Registration) : Registration := { g with cached := none, snapshots := 0 }

@[simp] theorem Registration.core_config (g : Registration) : g.config.1.core = g.core := by
  rw [fst_config]
  rfl

namespace Container

open Activity

/-- The courses of a request through an instance of its own, and what the dispatch returns: the
instance cannot be built, it cannot be initialized, or it is processed with and then destroyed,
whatever either of these comes to. `i` is the instance, and `runs` counts what the class did before. -/
inductive Handling (k : HandlerClass) (runs : Stage → Nat) (g : Registration) (i : InstanceId)
    (request response : Payload) : List Act → Except Fault Unit → Prop
  | unbuilt {cause : String} : k.construct (runs .construct) = .error cause →
      Handling k runs g i request response
        [.constructing g.cls (runs .construct), .constructed g.cls (.error cause)]
        (.error (.construction g.name cause))
  | uninitialized {cause : String} : k.construct (runs .construct) = .ok () →
      k.init (runs .init) g.currentConfig = .error cause →
      Handling k runs g i request response
        [.constructing g.cls (runs .construct), .constructed g.cls (.ok i),
          .initializing g.cls i g.currentConfig, .initialized g.cls i (.error cause)]
        (.error (.construction g.name cause))
  | processed {outcome : Except String Unit} : k.construct (runs .construct) = .ok () →
      k.init (runs .init) g.currentConfig = .ok () →
      (∀ reply, k.duty = .answer reply →
        outcome = (reply (runs .process) (some g.currentConfig) request response).2) →
      Handling k runs g i request response
        [.constructing g.cls (runs .construct), .constructed g.cls (.ok i),
          .initializing g.cls i g.currentConfig, .initialized g.cls i (.ok ()),
          .processing g.cls i, .processed g.cls i outcome,
          .destroying g.cls i, .destroyed g.cls i (k.destroy (runs .destroy))]
        (outcome.mapError (.handler g.name))

/-- Whatever instance is dealt with, it is the one of the request. -/
theorem Handling.about {k : HandlerClass} {runs : Stage → Nat} {g : Registration} {i : InstanceId}
    {request response : Payload} {acts : List Act} {out : Except Fault Unit}
    (h : Handling k runs g i request response acts out) : ∀ a ∈ acts, ∀ j, a.about? = some j → j = i := by
  cases h <;> simp [Act.about?]

namespace Store

/-- From `s` to `t` exactly `acts` are noted, the oldest first. Of the registrations nothing but the
snapshots may have changed, and what was built keeps its class. -/
structure Logs (acts : List Act) (s t : Store) : Prop where
  acts : t.acts = acts.reverse ++ s.acts
  classes : t.classes = s.classes
  enrolled : t.registrations.size = s.registrations.size
  cores : ∀ r, (t.registration r).core = (s.registration r).core
  size : s.instances.size ≤ t.instances.size
  built : ∀ i < s.instances.size, t.classOfInstance i = s.classOfInstance i

/-- A request more is counted at a registration. -/
def leased (s : Store) (r : RegistrationId) : Store :=
  s.updateRegistration r fun g => { g with active := g.active + 1 }

/-- Exactly `acts` were noted; the requests counted and the slots are as they were. -/
structure Closes (acts : List Act) (s t : Store) : Prop where
  acts : t.acts = acts.reverse ++ s.acts
  active : ∀ r, (t.registration r).active = (s.registration r).active
  shared : ∀ r, (t.registration r).shared = (s.registration r).shared

section

variable {s t u : Store} {r : RegistrationId} {i : InstanceId} {as bs : List Act}

theorem Logs.trans (h : Logs as s t) (k : Logs bs t u) : Logs (as ++ bs) s u where
  acts := by rw [k.acts, h.acts, List.reverse_append, List.append_assoc]
  classes := k.classes.trans h.classes
  enrolled := k.enrolled.trans h.enrolled
  cores r := (k.cores r).trans (h.cores r)
  size := Nat.le_trans h.size k.size
  built i hi := (k.built i (Nat.lt_of_lt_of_le hi h.size)).trans (h.built i hi)

theorem logs_of_eq (hr : t.registrations = s.registrations) (hc : t.classes = s.classes)
    (hi : t.instances = s.instances) (ha : t.acts = as.reverse ++ s.acts) : Logs as s t where
  acts := ha
  classes := hc
  enrolled := by rw [hr]
  cores r := by rw [registration, hr, registration]
  size := Nat.le_of_eq (by rw [hi])
  built i _ := by rw [classOfInstance, instance?, hi, classOfInstance, instance?]

theorem logs_beyond (h : Beyond s t) : Logs [] s t := by
  obtain ⟨board, gates, rfl⟩ := h
  exact logs_of_eq rfl rfl rfl rfl

theorem logs_measure (s : Store) (m : Meter) : Logs [] s (s.measure m) := logs_of_eq rfl rfl rfl rfl

theorem logs_note (s : Store) (a : Act) : Logs [a] s (s.note a) := logs_of_eq rfl rfl rfl rfl

theorem Logs.name_eq (h : Logs as s t) (r : RegistrationId) :
    (t.registration r).name = (s.registration r).name := (congrArg Registration.name (h.cores r) :)

theorem Logs.currentConfig_eq (h : Logs as s t) (r : RegistrationId) :
    (t.registration r).currentConfig = (s.registration r).currentConfig :=
  (congrArg Registration.currentConfig (h.cores r) :)

theorem Logs.classOf_eq (h : Logs as s t) (c : ClassId) : t.classOf c = s.classOf c := by
  rw [classOf, h.classes, classOf]

/-- How often a stage was gone through is read off what is noted. -/
theorem Logs.runs_eq (h : Logs as s t) (c : ClassId) (stage : Stage) :
    t.runs c stage = (as.countP fun a => a.finished? = some (c, stage)) + s.runs c stage := by
  rw [runs, h.acts, List.countP_append, List.countP_reverse, runs]

theorem leased_registration (s : Store) (r r' : RegistrationId) :
    ∃ n, (s.leased r).registration r' = { s.registration r' with active := n } := by
  rw [leased, registration_updateRegistration]
  split
  · exact ⟨_, rfl⟩
  · exact ⟨(s.registration r').active, rfl⟩

/-- Giving up the place of a request closes what was opened by counting it. -/
theorem Logs.closes (h : Logs as (s.leased r) t) (ha : u.acts = t.acts)
    (hr : u.registrations = (t.releaseSlot r).registrations) : Closes as s u := by
  have hu : ∀ r', u.registration r' =
      if r = r' ∧ r < t.registrations.size then (t.registration r').released else t.registration r' := by
    intro r'
    rw [registration, hr]
    exact registration_updateRegistration r'
  have hs : ∀ r', (s.leased r).registration r' = if r = r' ∧ r < s.registrations.size then
      { s.registration r' with active := (s.registration r').active + 1 } else s.registration r' :=
    fun r' => registration_updateRegistration r'
  have hsize : t.registrations.size = s.registrations.size := h.enrolled.trans (Roster.size_update ..)
  refine ⟨ha.trans h.acts, fun r' => ?_, fun r' => ?_⟩
  · have hactive := congrArg Registration.active (h.cores r')
    rw [hu, hsize]
    rw [hs] at hactive
    split at hactive
    · rename_i hr'
      have hpos : (t.registration r').active = (s.registration r').active + 1 := hactive
      rw [if_pos hr', Registration.released, if_pos (hpos ▸ Nat.succ_pos _)]
      exact Nat.sub_eq_of_eq_add hpos
    · rename_i hr'
      rw [if_neg hr']
      exact hactive
  · have hshared : (t.registration r').shared = ((s.leased r).registration r').shared :=
      (congrArg Registration.shared (h.cores r') :)
    obtain ⟨n, hn⟩ := s.leased_registration r r'
    rw [hn] at hshared
    rw [hu]
    split
    · exact (Registration.shared_released _).trans hshared
    · exact hshared

end

end Store

section

variable {s t : Store} {r : RegistrationId} {i : InstanceId} {as bs : List Act}

/-! ## The stages -/

theorem Store.logs_configure (s : Store) (r : RegistrationId) (i : InstanceId) (config : HandlerConfig) :
    Store.Logs [.initializing (s.classOfInstance i) i config] s
      (((s.configure r).1.updateInstance i fun t => { t with config := some config }).note
        (.initializing (s.classOfInstance i) i config)) where
  acts := rfl
  classes := rfl
  enrolled := Roster.size_update ..
  cores r' := by
    show ((s.updateRegistration r _).registration r').core = _
    rw [Store.registration_updateRegistration]
    split
    · rename_i hr
      exact hr.1 ▸ (s.registration r).core_config
    · rfl
  size := Nat.le_of_eq (Roster.size_update ..).symm
  built j _ := by
    show (((s.updateInstance i _).instance? j).map (·.cls)).getD 0 = _
    rw [Store.instance?_updateInstance]
    split
    · rw [Option.map_map]
      rfl
    · rfl

/-- An instance is initialized with what the registration says at that time. -/
theorem setUp_logs (hc : (s.registration r).IsCurrent) (hi : i < s.instances.size) :
    Ensures Beyond (setUp r i) (fun _ out t =>
      Store.Logs [.initializing (s.classOfInstance i) i (s.registration r).currentConfig,
        .initialized (s.classOfInstance i) i out] s t ∧
      out = (s.classOf (s.classOfInstance i)).init (s.runs (s.classOfInstance i) .init)
        (s.registration r).currentConfig ∧
      (t.instance? i).bind (·.config) = some (s.registration r).currentConfig) s := by
  simp only [setUp, runInit, ensures_bind, ensures_act, ensures_yield]
  intro u hu
  have hconfig : (s.configure r).2 = (s.registration r).currentConfig := hc.config.1
  rw [hconfig] at hu
  have hlogs := (s.logs_configure r i (s.registration r).currentConfig).trans (Store.logs_beyond hu)
  have hinstance : (u.instance? i).bind (·.config) = some (s.registration r).currentConfig := by
    obtain ⟨board, gates, rfl⟩ := hu
    show ((s.updateInstance i _).instance? i).bind _ = _
    rw [Store.instance?_updateInstance, if_pos rfl]
    obtain ⟨a, ha⟩ := Option.isSome_iff_exists.1 ((s.instances.isSome_get? i).2 hi)
    rw [Store.instance?, ha]
    rfl
  rw [hinstance, Option.getD_some, hlogs.classOf_eq, hlogs.runs_eq]
  exact ⟨hlogs.trans (Store.logs_note u _), by simp [Act.finished?], hinstance⟩

/-- An instance that serves one request is initialized for it. -/
theorem prepare_logs (hc : (s.registration r).IsCurrent) (hi : i < s.instances.size) :
    Ensures Beyond (prepare r i false) (fun _ out t => ∃ outcome,
      Store.Logs [.initializing (s.classOfInstance i) i (s.registration r).currentConfig,
        .initialized (s.classOfInstance i) i outcome] s t ∧
      outcome = (s.classOf (s.classOfInstance i)).init (s.runs (s.classOfInstance i) .init)
        (s.registration r).currentConfig ∧
      out = outcome.mapError (.construction (s.registration r).name) ∧
      (t.instance? i).bind (·.config) = some (s.registration r).currentConfig) s := by
  refine ensures_bind.2 ((setUp_logs hc hi).mono fun _ outcome t ht => ?_)
  obtain ⟨hlogs, hout, hinstance⟩ := ht
  cases outcome with
  | ok => exact ensures_pure.2 ⟨.ok (), hlogs, hout, rfl, hinstance⟩
  | error cause =>
    refine ensures_act.2 ⟨.error cause, hlogs.trans (Store.logs_measure t _), hout, ?_, hinstance⟩
    rw [hlogs.name_eq]
    rfl

theorem process_logs (i : InstanceId) (e : RequestEvent) (s : Store) :
    Ensures Beyond (process i e) (fun _ out t =>
      Store.Logs [.processing (s.classOfInstance i) i, .processed (s.classOfInstance i) i out.2] s t ∧
      out.1.handled = e.handled ∧
      ∀ reply, (s.classOf (s.classOfInstance i)).duty = .answer reply →
        out.2 = (reply (s.runs (s.classOfInstance i) .process) ((s.instance? i).bind (·.config))
          e.request e.response).2) s := by
  simp only [process, ensures_bind, ensures_act]
  refine (linger_beyond _ _).mono fun _ _ u hu => ?_
  have hlogs := (s.logs_note (.processing (s.classOfInstance i) i)).trans (Store.logs_beyond hu)
  refine ⟨?_, trivial, fun reply hreply => ?_⟩
  · obtain ⟨remotes, hr⟩ := perform_state u (s.classOfInstance i) i e.request e.response
    rw [hr]
    exact hlogs.trans (Store.logs_of_eq rfl rfl rfl rfl)
  · have hinstance : u.instance? i = s.instance? i := by
      obtain ⟨board, gates, rfl⟩ := hu
      rfl
    rw [Store.perform, hlogs.classOf_eq, hreply]
    dsimp only
    rw [hlogs.runs_eq, hinstance]
    simp [Act.finished?]

theorem destroy_logs (i : InstanceId) (s : Store) :
    Ensures Beyond (destroy i) (fun _ _ t =>
      Store.Logs [.destroying (s.classOfInstance i) i, .destroyed (s.classOfInstance i) i
        ((s.classOf (s.classOfInstance i)).destroy (s.runs (s.classOfInstance i) .destroy))] s t) s := by
  simp only [destroy, runDestroy, ensures_bind, ensures_act, ensures_yield, ensures_modify]
  intro u hu
  have hlogs := (s.logs_note (.destroying (s.classOfInstance i) i)).trans (Store.logs_beyond hu)
  have hruns : u.runs (s.classOfInstance i) .destroy = s.runs (s.classOfInstance i) .destroy := by
    rw [hlogs.runs_eq]
    simp [Act.finished?]
  rw [hlogs.classOf_eq, hruns]
  exact hlogs.trans (Store.logs_note u _)

/-- What giving an instance back and telling of the outcome comes to. -/
theorem finish_closes (h : Store.Logs as (s.leased r) t) (i : InstanceId) (handler : String)
    (e : RequestEvent) (outcome : Except String Unit) :
    Ensures Beyond (finish r i handler e outcome) (fun _ out u =>
      Store.Closes as s u ∧ out.1 = e ∧ out.2 = outcome.mapError (.handler handler)) t := by
  refine ensures_bind.2 (ensures_modify.2 ?_)
  cases outcome with
  | ok => exact ensures_pure.2 ⟨h.closes rfl rfl, rfl, rfl⟩
  | error cause =>
    refine ensures_bind.2 (ensures_modify.2 (ensures_pure.2 ⟨?_, rfl, rfl⟩))
    exact h.closes rfl rfl

/-! ## Instances of one's own -/

/-- What it comes to if an instance is built for a registration now. -/
def Store.attempt (s : Store) (r : RegistrationId) : Except String Unit :=
  (s.classOf (s.registration r).cls).construct (s.runs (s.registration r).cls .construct)

/-- What is noted of it. -/
def Store.attempted (s : Store) (r : RegistrationId) (outcome : Except String InstanceId) : List Act :=
  [.constructing (s.registration r).cls (s.runs (s.registration r).cls .construct),
    .constructed (s.registration r).cls outcome]

/-- An instance is built and numbered, or it is told why there is none. -/
theorem Store.instantiate_logs (s : Store) (r : RegistrationId) :
    (∃ cause, s.attempt r = .error cause ∧
      (s.instantiate r).2 = .error (.construction (s.registration r).name cause) ∧
      Store.Logs (s.attempted r (.error cause)) s (s.instantiate r).1) ∨
    (s.attempt r = .ok () ∧ (s.instantiate r).2 = .ok s.instances.size ∧
      Store.Logs (s.attempted r (.ok s.instances.size)) s (s.instantiate r).1 ∧
      (s.instantiate r).1.instances.size = s.instances.size + 1 ∧
      (s.instantiate r).1.classOfInstance s.instances.size = (s.registration r).cls) := by
  unfold Store.instantiate
  dsimp only
  split
  · rename_i cause hc
    exact .inl ⟨cause, hc, rfl, Store.logs_of_eq rfl rfl rfl rfl⟩
  · rename_i hc
    have hadd := s.instance?_add
      { cls := (s.registration r).cls, number := s.runs (s.registration r).cls .construct }
    refine .inr ⟨hc, rfl, ⟨rfl, rfl, rfl, fun _ => rfl, ?_, fun j hj => ?_⟩, Roster.size_add .., ?_⟩
    · exact Nat.le_trans (Nat.le_succ _) (Nat.le_of_eq (Roster.size_add ..).symm)
    · show ((Store.instance? { s with instances := s.instances.add _ } j).map (·.cls)).getD 0 = _
      rw [hadd, if_neg (Nat.ne_of_lt hj)]
      rfl
    · show ((Store.instance? { s with instances := s.instances.add _ } _).map (·.cls)).getD 0 = _
      rw [hadd, if_pos rfl]
      rfl

theorem Store.attempt_leased (s : Store) (r : RegistrationId) :
    (s.leased r).attempt r = s.attempt r ∧ (s.leased r).attempted r = s.attempted r := by
  obtain ⟨n, hn⟩ := s.leased_registration r r
  have hcls : ((s.leased r).registration r).cls = (s.registration r).cls := by rw [hn]
  constructor
  · rw [Store.attempt, hcls]
    rfl
  · funext outcome
    rw [Store.attempted, hcls]
    rfl

/-- A request has the instance `i` of its class, and so far exactly `acts` were noted. -/
structure Store.Attending (s : Store) (r : RegistrationId) (i : InstanceId) (acts : List Act) (t : Store) :
    Prop where
  logs : Store.Logs acts (s.leased r) t
  there : i < t.instances.size
  cls : t.classOfInstance i = (s.registration r).cls

theorem Store.Attending.step {u : Store} (h : s.Attending r i as t) (k : t.Logs bs u) :
    s.Attending r i (as ++ bs) u where
  logs := h.logs.trans k
  there := Nat.lt_of_lt_of_le h.there k.size
  cls := (k.built i h.there).trans h.cls

theorem Store.Attending.classOf_eq (h : s.Attending r i as t) (c : ClassId) : t.classOf c = s.classOf c :=
  h.logs.classOf_eq c

theorem Store.Attending.name_eq (h : s.Attending r i as t) :
    (t.registration r).name = (s.registration r).name := by
  obtain ⟨n, hn⟩ := s.leased_registration r r
  rw [h.logs.name_eq, hn]

theorem Store.Attending.currentConfig_eq (h : s.Attending r i as t) :
    (t.registration r).currentConfig = (s.registration r).currentConfig := by
  obtain ⟨n, hn⟩ := s.leased_registration r r
  rw [h.logs.currentConfig_eq, hn]
  rfl

/-- Only what is noted in between adds to how often a stage was gone through. -/
theorem Store.Attending.runs_eq (h : s.Attending r i as t) {stage : Stage}
    (hn : ∀ a ∈ as, a.finished? ≠ some ((s.registration r).cls, stage)) :
    t.runs (s.registration r).cls stage = s.runs (s.registration r).cls stage := by
  rw [h.logs.runs_eq, List.countP_eq_zero.2 fun a ha => by simpa using hn a ha, Nat.zero_add]
  rfl

/-- A request that shares nothing gets a new instance, or gives up its place. -/
theorem createHandler_attends (hown : (s.registration r).instancing.sharesInstance = false)
    (hc : (s.registration r).IsCurrent) : Ensures Beyond (createHandler r) (fun _ out t =>
      (∃ cause, s.attempt r = .error cause ∧ out = .error (.construction (s.registration r).name cause) ∧
        Store.Closes (s.attempted r (.error cause)) s t) ∨
      (s.attempt r = .ok () ∧ out = .ok s.instances.size ∧
        s.Attending r s.instances.size (s.attempted r (.ok s.instances.size)) t ∧
        (t.registration r).instancing.sharesInstance = false ∧ (t.registration r).IsCurrent)) s := by
  obtain ⟨n, hn⟩ := s.leased_registration r r
  have hname : ((s.leased r).registration r).name = (s.registration r).name := by rw [hn]
  have hcls : ((s.leased r).registration r).cls = (s.registration r).cls := by rw [hn]
  have hbuilt := (s.leased r).instantiate_logs r
  rw [(s.attempt_leased r).1, (s.attempt_leased r).2, hname, hcls] at hbuilt
  simp only [createHandler, ensures_bind, ensures_act, hown, Bool.false_eq_true, if_false]
  show Ensures Beyond (deliver r ((s.leased r).instantiate r).2) _ ((s.leased r).instantiate r).1
  rcases hbuilt with ⟨cause, hcause, hout, hlogs⟩ | ⟨hbuild, hout, hlogs, hsize, hcls'⟩
  · rw [hout]
    refine ensures_bind.2 (ensures_modify.2 (ensures_pure.2 (.inl ⟨cause, hcause, rfl, ?_⟩)))
    exact hlogs.closes rfl rfl
  · rw [hout]
    refine ensures_pure.2 (.inr ⟨hbuild, rfl, ⟨hlogs, hsize ▸ Nat.lt_succ_self _, hcls'⟩, ?_⟩)
    rw [Store.registration, Store.registrations_instantiate]
    show ((s.leased r).registration r).instancing.sharesInstance = false ∧ ((s.leased r).registration r).IsCurrent
    rw [hn]
    exact ⟨hown, hc⟩

/-- Serving an event with an instance of its own. -/
theorem invoke_handles (hown : (s.registration r).instancing.sharesInstance = false)
    (hc : (s.registration r).IsCurrent) (e : RequestEvent) :
    Ensures Beyond (invoke r e) (fun _ out t => out.1.handled = e.handled ∧ ∃ acts,
      Store.Closes acts s t ∧
      Handling (s.classOf (s.registration r).cls) (s.runs (s.registration r).cls) (s.registration r)
        s.instances.size e.request e.response acts out.2) s := by
  refine ensures_bind.2 ((createHandler_attends hown hc).mono fun _ got u hu => ?_)
  rcases hu with ⟨cause, hcause, rfl, hcloses⟩ | ⟨hbuild, rfl, hu, hshares, hcurrent⟩
  · exact ensures_pure.2 ⟨rfl, _, hcloses, .unbuilt hcause⟩
  refine ensures_bind.2 (ensures_get.2 ?_)
  dsimp only
  rw [hshares]
  refine ensures_bind.2 ((prepare_logs hcurrent hu.there).mono fun _ ready v hv => ?_)
  obtain ⟨init, hset, hinit, rfl, hconfig⟩ := hv
  rw [hu.cls, hu.currentConfig_eq] at hset hinit
  rw [hu.classOf_eq, hu.runs_eq (by simp [Store.attempted, Act.finished?])] at hinit
  have hv := hu.step hset
  cases init with
  | error cause =>
    refine ensures_bind.2 (ensures_modify.2 (ensures_pure.2 ⟨rfl, _, hv.logs.closes rfl rfl, ?_⟩))
    rw [hu.name_eq]
    exact .uninitialized hbuild hinit.symm
  | ok =>
    refine ensures_bind.2 ((process_logs _ e v).mono fun _ ran w hw => ?_)
    obtain ⟨hran, hmarked, hreply⟩ := hw
    rw [hv.cls] at hran hreply
    rw [hv.classOf_eq, hv.runs_eq (by simp [Store.attempted, Act.finished?]), hconfig, hu.currentConfig_eq] at hreply
    have hw := hv.step hran
    refine ensures_bind.2 ((destroy_logs _ w).mono fun _ _ x hx => ?_)
    rw [hw.cls, hw.classOf_eq, hw.runs_eq (by simp [Store.attempted, Act.finished?])] at hx
    refine (finish_closes (hw.step hx).logs _ _ _ _).mono fun _ out t ht => ?_
    obtain ⟨hcloses, he, hout⟩ := ht
    rw [he, hout, hu.name_eq]
    exact ⟨hmarked, _, hcloses, .processed hbuild hinit.symm hreply⟩

/-! ## Dispatches -/

/-- A context lets an event through to a registration: the event resolves to it, it is available,
and where it is restricted its hook admits the event. -/
def Store.Admits (s : Store) (d : ComponentId) (e : RequestEvent) (r : RegistrationId) : Prop :=
  ∃ desk, s.desk? d = some desk ∧ desk.resolve e = some r ∧ (s.registration r).unavailable = false ∧
    ((s.registration r).isRestricted desk.settings.restrictedParam = true →
      ∃ h, (s.registration r).hook = some h ∧
        (s.hooks.getD h default).admits (s.questions h) (s.registration r).name e = true)

/-- Whoever asks for a permit of the class is given one at once. -/
def Store.Unbarred (s : Store) (c : ClassId) : Prop :=
  ∀ gate, (s.classOf c).gate = some gate → (s.gate gate).asked < (s.gate gate).granted

theorem consult_admits {g : Registration} {h : HookId} {e : RequestEvent} (hh : g.hook = some h)
    (ha : (s.hooks.getD h default).admits (s.questions h) g.name e = true) :
    Ensures Beyond (consult g e) (fun _ out t =>
      out = (e, .ok true) ∧ Beyond (s.note (.asked h g.name true)) t) s := by
  simp only [consult, hh, ensures_bind, ensures_act, ensures_yield, ha, if_true, ensures_pure]
  exact fun u hu => ⟨trivial, hu⟩

theorem Store.runs_note_asked (s : Store) (h : HookId) (handler : String) (admitted : Bool) (c : ClassId) :
    (s.note (.asked h handler admitted)).runs c = s.runs c :=
  funext fun stage => List.countP_cons_of_neg (by simp [Act.finished?])

/-- A request that its context lets through is handled, after its hook was asked if it has to be. -/
theorem dispatchContext_handles {d : ComponentId} {e : RequestEvent} (ha : s.Admits d e r)
    (hown : (s.registration r).instancing.sharesInstance = false) (hc : (s.registration r).IsCurrent) :
    Ensures Beyond (dispatchContext d e) (fun _ out t => out.1.handled = true ∧ ∃ asked acts,
      (∀ a ∈ asked, a.isQuestion = true) ∧ Store.Closes (asked ++ acts) s t ∧
      Handling (s.classOf (s.registration r).cls) (s.runs (s.registration r).cls) (s.registration r)
        s.instances.size e.request e.response acts out.2) s := by
  obtain ⟨desk, hd, hr, havailable, hadmits⟩ := ha
  simp only [dispatchContext, ensures_bind, ensures_get, hd, hr, havailable, Bool.false_eq_true, if_false]
  split
  · rename_i hres
    obtain ⟨h, hh, ha⟩ := hadmits hres
    refine ensures_bind.2 ((consult_admits hh ha).mono fun _ out u hu => ?_)
    obtain ⟨rfl, board, gates, rfl⟩ := hu
    refine (invoke_handles (s := { s.note (.asked h (s.registration r).name true) with board, gates })
      hown hc _).mono fun _ out t ht => ?_
    obtain ⟨hmarked, acts, hcloses, hhandling⟩ := ht
    refine ⟨hmarked, [.asked h (s.registration r).name true], acts, by simp [Act.isQuestion], ?_, ?_⟩
    · refine ⟨?_, hcloses.active, hcloses.shared⟩
      rw [hcloses.acts, List.reverse_append, List.append_assoc]
      rfl
    · have hruns := s.runs_note_asked h (s.registration r).name true (s.registration r).cls
      rw [← hruns]
      exact hhandling
  · refine (invoke_handles hown hc _).mono fun _ out t ht => ?_
    obtain ⟨hmarked, acts, hcloses, hhandling⟩ := ht
    exact ⟨hmarked, [], acts, by simp, hcloses, hhandling⟩

/-! ## Dispatches come back -/

theorem linger_passes {c : ClassId} (h : s.Unbarred c) : Completes (linger c) (fun _ _ => True) s := by
  simp only [linger, completes_bind, completes_get]
  split
  · rename_i gate hg
    simp only [passGate, completes_bind, completes_act]
    refine completes_waitUntil ?_ trivial
    have hgate : (s.takeTicket gate).1.gate gate = { s.gate gate with asked := (s.gate gate).asked + 1 } := by
      rw [Store.gate, Store.takeTicket, Keyed.find?_insert, if_pos rfl, Option.getD_some]
    rw [hgate]
    exact decide_eq_true (h gate hg)
  · exact completes_yield.2 trivial

theorem createHandler_passes (hown : (s.registration r).instancing.sharesInstance = false) :
    Completes (createHandler r) (fun _ t => t.gates = s.gates) s := by
  simp only [createHandler, completes_bind, completes_act, hown, Bool.false_eq_true, if_false]
  have hgates : ∀ u : Store, (u.instantiate r).1.gates = u.gates := by
    intro u
    unfold Store.instantiate
    dsimp only
    split <;> rfl
  cases (Store.instantiate _ r).2 with
  | error f =>
    simp only [deliver, completes_bind, completes_modify, completes_pure]
    exact hgates _
  | ok i => exact completes_pure.2 (hgates _)

theorem prepare_passes (r : RegistrationId) (i : InstanceId) (s : Store) :
    Completes (prepare r i false) (fun _ t => t.gates = s.gates) s := by
  simp only [prepare, Bool.false_eq_true, if_false, setUp, runInit, completes_bind, completes_act, completes_yield]
  split
  · exact completes_pure.2 rfl
  · exact completes_act.2 rfl

theorem process_passes (h : s.Unbarred (s.classOfInstance i)) (e : RequestEvent) :
    Completes (process i e) (fun _ _ => True) s := by
  simp only [process, completes_bind, completes_act]
  exact linger_passes (s := s.note _) h

theorem destroy_passes (i : InstanceId) (s : Store) : Completes (destroy i) (fun _ _ => True) s := by
  simp only [destroy, runDestroy, completes_bind, completes_act, completes_yield, completes_modify]

theorem finish_passes (r : RegistrationId) (i : InstanceId) (handler : String) (e : RequestEvent)
    (outcome : Except String Unit) : Completes (finish r i handler e outcome) (fun _ _ => True) s := by
  refine completes_bind.2 (completes_modify.2 ?_)
  cases outcome with
  | ok => exact completes_pure.2 trivial
  | error cause => exact completes_bind.2 (completes_modify.2 (completes_pure.2 trivial))

/-- Left alone, a request comes to its end where it is not made to wait for a permit. -/
theorem invoke_passes (hown : (s.registration r).instancing.sharesInstance = false)
    (hc : (s.registration r).IsCurrent) (hg : s.Unbarred (s.registration r).cls) (e : RequestEvent) :
    Completes (invoke r e) (fun _ _ => True) s := by
  refine completes_bind.2 (((createHandler_passes hown).ensures beyond_refl (createHandler_attends hown hc)).mono ?_)
  rintro got u ⟨hgates, ⟨cause, -, rfl, -⟩ | ⟨-, rfl, hu, hshares, hcurrent⟩⟩
  · exact completes_pure.2 trivial
  refine completes_bind.2 (completes_get.2 ?_)
  dsimp only
  rw [hshares]
  refine completes_bind.2 (((prepare_passes r _ u).ensures beyond_refl (prepare_logs hcurrent hu.there)).mono ?_)
  rintro ready v ⟨hgates', init, hset, -, rfl, -⟩
  have hv := hu.step hset
  have hunbarred : v.Unbarred (v.classOfInstance s.instances.size) := by
    intro gate hgate
    rw [hv.cls, hv.classOf_eq] at hgate
    rw [Store.gate, hgates', hgates]
    exact hg gate hgate
  cases init with
  | error cause => exact completes_bind.2 (completes_modify.2 (completes_pure.2 trivial))
  | ok =>
    refine completes_bind.2 ((process_passes hunbarred e).mono fun ran w _ => ?_)
    exact completes_bind.2 ((destroy_passes _ w).mono fun _ _ _ => finish_passes r _ _ _ _)

theorem dispatchContext_passes {d : ComponentId} {e : RequestEvent} (ha : s.Admits d e r)
    (hown : (s.registration r).instancing.sharesInstance = false) (hc : (s.registration r).IsCurrent)
    (hg : s.Unbarred (s.registration r).cls) : Completes (dispatchContext d e) (fun _ _ => True) s := by
  obtain ⟨desk, hd, hr, havailable, hadmits⟩ := ha
  simp only [dispatchContext, completes_bind, completes_get, hd, hr, havailable, Bool.false_eq_true, if_false]
  split
  · rename_i hres
    obtain ⟨h, hh, ha⟩ := hadmits hres
    simp only [consult, hh, completes_bind, completes_act, completes_yield, ha, if_true, completes_pure]
    exact invoke_passes (s := s.note _) hown hc hg _
  · exact invoke_passes hown hc hg _

/-! ## One request after another -/

/-- What becomes of a request that a context lets through to a handler with instances of their own,
in any store that has come about by operations of contexts, dispatches and loans. The event is marked
as handled, no count of requests is changed, and after the questions to hooks one of the courses of
`Handling` is noted, with its outcome returned. The instance is new then, and whatever follows, nothing
more is ever noted about it. The dispatch comes back where the class is not made to wait for a permit. -/
theorem admitted_dispatch_handled {d : ComponentId} {e : RequestEvent} (hs : s.Arises) (ha : s.Admits d e r)
    (hown : (s.registration r).instancing ≠ .stateless) :
    Ensures Beyond (dispatchContext d e) (fun _ out t =>
      out.1.handled = true ∧ (∀ r', (t.registration r').active = (s.registration r').active) ∧
      ∃ asked acts, (∀ a ∈ asked, a.isQuestion = true) ∧ t.acts = (asked ++ acts).reverse ++ s.acts ∧
        Handling (s.classOf (s.registration r).cls) (s.runs (s.registration r).cls) (s.registration r)
          s.instances.size e.request e.response acts out.2 ∧
        ∀ a ∈ acts, ∀ i, a.about? = some i → i = s.instances.size ∧ s.trail i = [] ∧
          ∀ u, Advances t u → u.trail i = acts.filter (·.about? = some i)) s ∧
    (s.Unbarred (s.registration r).cls → Completes (dispatchContext d e) (fun _ _ => True) s) := by
  have htidy := hs.tidy
  have hshares : (s.registration r).instancing.sharesInstance = false := by
    simpa [Instancing.sharesInstance] using hown
  refine ⟨?_, dispatchContext_passes ha hshares (htidy.current r)⟩
  refine ((dispatchContext_handles ha hshares (htidy.current r)).and
    (dispatchContext_since (.refl htidy) d e)).mono fun _ out t ht => ?_
  obtain ⟨⟨hmarked, asked, acts, hasked, hcloses, hhandling⟩, hsince⟩ := ht
  refine ⟨hmarked, hcloses.active, asked, acts, hasked, hcloses.acts, hhandling, fun a hm i hi => ?_⟩
  obtain rfl := hhandling.about a hm i hi
  have hnew : s.trail s.instances.size = [] :=
    List.filter_eq_nil_iff.2 fun b hb hi' =>
      Nat.lt_irrefl _ (htidy.known b (List.mem_reverse.1 hb) _ (of_decide_eq_true hi'))
  have hloose : t.Loose s.instances.size := by
    refine ⟨hsince.tidy.known a ?_ _ hi, fun r' hr' => ?_⟩
    · rw [hcloses.acts]
      simp [hm]
    · rw [hcloses.shared] at hr'
      exact Nat.lt_irrefl _ (htidy.filled r' _ hr')
  refine ⟨rfl, hnew, fun u hu => ?_⟩
  have hquestions : asked.filter (·.about? = some s.instances.size) = [] := by
    refine List.filter_eq_nil_iff.2 fun b hb hi' => ?_
    have hq := hasked b hb
    cases b <;> simp_all [Act.isQuestion, Act.about?]
  rw [hu.trail_eq hsince.tidy hloose, Store.trail_append hcloses.acts, hnew, List.reverse_reverse, List.nil_append,
    List.filter_append, hquestions, List.nil_append]

end

/-- A context that has started, with nothing registered, and one class whose handlers lose what they
are given and cannot be destroyed either. -/
def sampleHost : Store where
  board := { managers := [{ name := "context", state := .started }] }
  components := ⟨[{ kind := .context { request := .any, response := .any } }]⟩
  classes := ⟨[{ HandlerClass.idle with
    instancing := .recyclable
    recyclable := true
    duty := .answer fun _ _ _ response => (response, .error "lost")
    destroy := fun _ => .error "stuck" }]⟩

def sampleErrand : RequestEvent where
  request := .text "hi"
  response := .reply ""
  handler := some "echo"

/-- The failure of the handler is told, not that of its end, and nothing is left in use. -/
theorem admitted_dispatch_handled_sample :
    ∃ s own out t, s.Arises ∧ s.Admits 0 sampleErrand 0 ∧ (s.registration 0).instancing ≠ .stateless ∧
      Runs Beyond (dispatchContext 0 sampleErrand) s own out t ∧ s.Unbarred (s.registration 0).cls ∧
      Completes (dispatchContext 0 sampleErrand) (fun _ _ => True) s ∧
      out.1.handled = true ∧ out.2 = .error (.handler "echo" "lost") ∧
      (t.registration 0).active = (s.registration 0).active ∧
      ∀ u, Advances t u → u.trail 0 = [.constructed 0 (.ok 0),
        .initializing 0 0 ⟨"echo", "context", .empty⟩, .initialized 0 0 (.ok ()),
        .processing 0 0, .processed 0 0 (.error "lost"), .destroying 0 0, .destroyed 0 0 (.error "stuck")] := by
  obtain ⟨s, out, t, hregister, hdispatch, hadmits, hown, hbare, hgate, hout, htrail⟩ :
      ∃ s out t,
        ((Op.register { name := "echo", cls := 0 }).work 0).run sampleHost = .finished () s ∧
        (dispatchContext 0 sampleErrand).run s = .finished out t ∧
        s.Admits 0 sampleErrand 0 ∧ (s.registration 0).instancing = .recyclable ∧ s.acts = [] ∧
        (s.classOf (s.registration 0).cls).gate = none ∧ out.2 = .error (.handler "echo" "lost") ∧
        t.trail 0 = [.constructed 0 (.ok 0),
          .initializing 0 0 ⟨"echo", "context", .empty⟩, .initialized 0 0 (.ok ()),
          .processing 0 0, .processed 0 0 (.error "lost"), .destroying 0 0, .destroyed 0 0 (.error "stuck")] :=
    ⟨_, _, _, rfl, rfl, ⟨_, rfl, rfl, rfl, fun h => by cases h⟩, rfl, rfl, rfl, rfl, rfl⟩
  obtain ⟨_, hrun⟩ := Runs.of_run beyond_refl hregister
  have hs : s.Arises := ⟨sampleHost, rfl, rfl, rfl, .single (.op 0 _ hrun)⟩
  obtain ⟨own, hrun⟩ := Runs.of_run beyond_refl hdispatch
  have hshares : (s.registration 0).instancing ≠ .stateless := by simp [hown]
  have hunbarred : s.Unbarred (s.registration 0).cls := by simp [Store.Unbarred, hgate]
  obtain ⟨hends, hcompletes⟩ := admitted_dispatch_handled hs hadmits hshares
  obtain ⟨hmarked, hactive, asked, acts, hasked, hacts, -, hown⟩ := hends _ _ _ hrun
  have hm : Act.constructed 0 (.ok 0) ∈ acts := by
    have hnoted : Act.constructed 0 (.ok 0) ∈ t.trail 0 := htrail ▸ List.mem_cons_self
    have hbuilt : Act.constructed 0 (.ok 0) ∈ t.acts := List.mem_reverse.1 (List.mem_of_mem_filter hnoted)
    rw [hacts, hbare, List.append_nil, List.mem_reverse, List.mem_append] at hbuilt
    exact hbuilt.resolve_left fun h => Bool.noConfusion (hasked _ h)
  obtain ⟨-, -, hlater⟩ := hown _ hm 0 rfl
  refine ⟨s, own, out, t, hs, hadmits, hshares, hrun, hunbarred, hcompletes hunbarred, hmarked, hout,
    hactive 0, fun u hu => ?_⟩
  rw [hlater u hu, ← hlater t .refl, htrail]

end Container
end Switchboard
