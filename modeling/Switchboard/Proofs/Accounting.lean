import Switchboard.Proofs.Signatures

/-!
# Accounting for calls

What an endpoint has done after any calls. `Fate` says how one call goes, told
by what the caller and the factory do: the prototype is looked up, the arguments
are bound, an instance is obtained, the body runs; the first of these that fails
decides the fault, and what happened before it is all that happened. From the
fates of the calls follow the sums: how often the factory ran, how many bodies
ran and on which instance, and what the meters show.
-/

namespace Switchboard.Rpc

variable {ι : Type}

/-! ## Happenings and sums -/

namespace Happening

def isBuilt : Happening → Bool
  | .built _ => true
  | _ => false

def isInvoked : Happening → Bool
  | .invoked .. => true
  | _ => false

end Happening

/-- What a call adds to the meters, newest first. -/
def metersOf (interface : String) : Except Fault Json → List Meter
  | .ok _ => [.callTimed interface, .called interface]
  | .error _ => [.callFailed interface, .callTimed interface, .called interface]

/-- A call with this outcome got as far as the body of its method. -/
def reachedBody : Except Fault Json → Bool
  | .ok _ => true
  | .error f => f.isTargetFailure

namespace Ledger

/-- How often the factory has run. -/
def factoryRuns (l : Ledger) : Nat := l.happenings.countP Happening.isBuilt

/-- The ledger after more happenings, given in the order in which they happen. -/
def record (l : Ledger) (hs : List Happening) : Ledger :=
  { l with builds := l.builds + hs.countP Happening.isBuilt, happenings := hs.reverse ++ l.happenings }

def metered (l : Ledger) (ms : List Meter) : Ledger := { l with readings := ms ++ l.readings }

variable {l : Ledger} {hs ks : List Happening} {ms : List Meter}

@[simp] theorem record_nil : l.record [] = l := by simp [record]

theorem record_append : l.record (hs ++ ks) = (l.record hs).record ks := by
  simp [record, Nat.add_assoc]

@[simp] theorem factoryRuns_record :
    (l.record hs).factoryRuns = l.factoryRuns + hs.countP Happening.isBuilt := by
  simp [factoryRuns, record, Nat.add_comm]

@[simp] theorem factoryRuns_metered : (l.metered ms).factoryRuns = l.factoryRuns := rfl

theorem invocations_eq : l.invocations = l.happenings.countP Happening.isInvoked := by
  unfold invocations
  congr 1

@[simp] theorem invocations_record :
    (l.record hs).invocations = l.invocations + hs.countP Happening.isInvoked := by
  simp [invocations_eq, record, Nat.add_comm]

@[simp] theorem invocations_metered : (l.metered ms).invocations = l.invocations := rfl

end Ledger

/-! ## Obtaining an instance -/

/-- What one run of the factory and then of the injection comes to: what happens, in order, and the
instance, unless one of them fails. -/
inductive Implementation.Makes (impl : Implementation ι) (data : Params) (n : Nat) :
    List Happening → Except String (Numbered ι) → Prop
  | unbuilt {cause : String} : impl.build n data = .error cause →
      Makes impl data n [.built n] (.error cause)
  | bare {value : ι} : impl.build n data = .ok value → impl.inject = none →
      Makes impl data n [.built n] (.ok ⟨n, value⟩)
  | uninjected {value : ι} {inject : Nat → ι → Params → Except String ι} {cause : String} :
      impl.build n data = .ok value → impl.inject = some inject → inject n value data = .error cause →
      Makes impl data n [.built n, .injected n] (.error cause)
  | injected {value made : ι} {inject : Nat → ι → Params → Except String ι} :
      impl.build n data = .ok value → impl.inject = some inject → inject n value data = .ok made →
      Makes impl data n [.built n, .injected n] (.ok ⟨n, made⟩)

section

variable {impl : Implementation ι} {data : Params} {n : Nat} {hs : List Happening}
  {r : Except String (Numbered ι)}

theorem Implementation.Makes.builds (h : impl.Makes data n hs r) : hs.countP Happening.isBuilt = 1 := by
  cases h <;> rfl

theorem Implementation.Makes.invokes_nothing (h : impl.Makes data n hs r) :
    hs.countP Happening.isInvoked = 0 := by
  cases h <;> rfl

theorem Implementation.Makes.number {made : Numbered ι} (h : impl.Makes data n hs (.ok made)) :
    made.number = n := by
  cases h <;> rfl

theorem Endpoint.makes_instantiate (impl : Implementation ι) (data : Params) (l : Ledger) :
    ∃ hs, impl.Makes data l.builds hs (instantiate impl data l).2 ∧
      (instantiate impl data l).1 = l.record hs := by
  unfold instantiate
  dsimp only
  split
  · rename_i h
    exact ⟨_, .unbuilt h, rfl⟩
  · rename_i h
    split
    · rename_i hi
      exact ⟨_, .bare h hi, rfl⟩
    · rename_i hi
      split
      · rename_i hj
        exact ⟨_, .uninjected h hi hj, rfl⟩
      · rename_i hj
        exact ⟨_, .injected h hi hj, rfl⟩

end

/-- Every formal parameter takes what the call gives for it. -/
def MethodDescriptor.Takes (d : MethodDescriptor) (c : MethodCall) : Prop :=
  ∀ p ∈ d.params, ∀ f, ¬ p.Refuses c.prototype (c.given p.name) f

theorem MethodDescriptor.takes_iff {d : MethodDescriptor} {c : MethodCall} : d.Takes c ↔
    ∀ p ∈ d.params, ∃ v, Endpoint.bindArgument c.prototype p (Keyed.find? p.name c.params) = .ok v := by
  refine forall₂_congr fun p _ => ?_
  simp only [MethodCall.given, ← Endpoint.bindArgument_error_iff]
  cases Endpoint.bindArgument c.prototype p (Keyed.find? p.name c.params) with
  | ok v => simp
  | error f => simp

instance (d : MethodDescriptor) (c : MethodCall) : Decidable (d.Takes c) :=
  decidable_of_iff (∀ p ∈ d.params,
    (Endpoint.bindArgument c.prototype p (Keyed.find? p.name c.params)).isOk = true) <| by
    rw [MethodDescriptor.takes_iff]
    refine forall₂_congr fun p _ => ?_
    cases Endpoint.bindArgument c.prototype p (Keyed.find? p.name c.params) with
    | ok v => simp [Except.isOk, Except.toBool]
    | error f => simp [Except.isOk, Except.toBool]

namespace Endpoint

/-- A call gets the shared instance, where there is one, and otherwise one made for it. -/
inductive Obtains (e : Endpoint ι) (l : Ledger) : List Happening → Except String (Numbered ι) → Prop
  | shared {made : Numbered ι} : e.shared = some made → Obtains e l [] (.ok made)
  | fresh {hs : List Happening} {r : Except String (Numbered ι)} : e.shared = none →
      e.implementation.Makes e.data l.builds hs r → Obtains e l hs r

variable {e : Endpoint ι} {l : Ledger} {ctx : CallContext} {c : MethodCall} {hs : List Happening}

theorem Obtains.invokes_nothing {r : Except String (Numbered ι)} (h : e.Obtains l hs r) :
    hs.countP Happening.isInvoked = 0 := by
  cases h with
  | shared h => rfl
  | fresh h hm => exact hm.invokes_nothing

theorem obtains_obtain (e : Endpoint ι) (p : String) (l : Ledger) :
    ∃ hs r, e.Obtains l hs r ∧ e.obtain p l = (l.record hs, r.mapError (.invocation p)) := by
  unfold obtain
  split
  · rename_i made h
    exact ⟨[], _, .shared h, by rw [Ledger.record_nil]; rfl⟩
  · rename_i h
    obtain ⟨hs, hm, hl⟩ := makes_instantiate e.implementation e.data l
    refine ⟨hs, _, .fresh h hm, ?_⟩
    rw [← hl]
    split <;> rename_i hi <;> rw [hi] <;> rfl

/-! ## The fate of a call -/

/-- The call passes the lookup of its prototype and the binding of its arguments. -/
def Passes (e : Endpoint ι) (c : MethodCall) : Prop :=
  ∃ b ∈ e.bindings, b.method.prototype = c.prototype ∧ b.method.Takes c

instance (e : Endpoint ι) (c : MethodCall) : Decidable (e.Passes c) :=
  inferInstanceAs (Decidable (∃ b ∈ e.bindings, b.method.prototype = c.prototype ∧ b.method.Takes c))

/-- How a call goes: what happens, in order, and what the caller gets. -/
inductive Fate (e : Endpoint ι) (l : Ledger) (ctx : CallContext) (c : MethodCall) :
    List Happening → Except Fault Json → Prop
  | unknown : (∀ b ∈ e.bindings, b.method.prototype ≠ c.prototype) →
      Fate e l ctx c [] (.error (.methodNotFound c.prototype))
  | unbound {b : Binding ι} {before after : List ParameterDescriptor} {p : ParameterDescriptor}
      {f : Fault} : b ∈ e.bindings → b.method.prototype = c.prototype →
      b.method.params = before ++ p :: after →
      (∀ q ∈ before, ∀ f, ¬ q.Refuses c.prototype (c.given q.name) f) →
      p.Refuses c.prototype (c.given p.name) f → Fate e l ctx c [] (.error f)
  | unmade {b : Binding ι} {hs : List Happening} {cause : String} : b ∈ e.bindings →
      b.method.prototype = c.prototype → b.method.Takes c → e.Obtains l hs (.error cause) →
      Fate e l ctx c hs (.error (.invocation c.prototype cause))
  | ran {b : Binding ι} {hs : List Happening} {made : Numbered ι} {args : Args} : b ∈ e.bindings →
      b.method.prototype = c.prototype → b.method.Takes c → arguments b.method c = .ok args →
      e.Obtains l hs (.ok made) →
      Fate e l ctx c (hs ++ [.invoked made.number c.prototype])
        ((b.serving.body l.invocations made.value ctx args).mapError (.target c.prototype))

/-- The first parameter that refuses decides; where none does, the arguments are bound. -/
theorem bindArguments_error {prototype : String} {supplied acc : List (String × Json)}
    {ps : List ParameterDescriptor} {f : Fault}
    (h : bindArguments prototype supplied ps acc = .error f) :
    ∃ before p after, ps = before ++ p :: after ∧
      (∀ q ∈ before, ∃ v, bindArgument prototype q (Keyed.find? q.name supplied) = .ok v) ∧
      bindArgument prototype p (Keyed.find? p.name supplied) = .error f := by
  induction ps generalizing acc with
  | nil => cases h
  | cons p ps ih =>
    rw [bindArguments] at h
    split at h
    · rename_i f' hp
      cases h
      exact ⟨[], p, ps, rfl, by simp, hp⟩
    · rename_i v hp
      obtain ⟨before, q, after, rfl, hbefore, hq⟩ := ih h
      exact ⟨p :: before, q, after, rfl, List.forall_mem_cons.2 ⟨⟨v, hp⟩, hbefore⟩, hq⟩

theorem not_refuses_of_ok {prototype : String} {p : ParameterDescriptor} {value : Option Json} {v : Json}
    (h : bindArgument prototype p value = .ok v) (f : Fault) :
    ¬ p.Refuses prototype (value.filter fun v => !v.isNull) f := by
  intro hr
  cases h.symm.trans (bindArgument_error_iff.2 hr)

theorem takes_of_arguments {d : MethodDescriptor} {args : Args} (hd : d.prototype = c.prototype)
    (h : arguments d c = .ok args) : d.Takes c := by
  obtain ⟨values, hv, -⟩ := map_eq_ok_iff.1 h
  rw [hd] at hv
  exact MethodDescriptor.takes_iff.2 (exists_bindArguments_iff.1 ⟨values, hv⟩)

theorem refused_of_arguments {d : MethodDescriptor} {f : Fault} (hd : d.prototype = c.prototype)
    (h : arguments d c = .error f) :
    ∃ before p after, d.params = before ++ p :: after ∧
      (∀ q ∈ before, ∀ f, ¬ q.Refuses c.prototype (c.given q.name) f) ∧
      p.Refuses c.prototype (c.given p.name) f := by
  have hbind : bindArguments d.prototype c.params d.params [] = .error f := by
    unfold arguments at h
    cases hb : bindArguments d.prototype c.params d.params [] with
    | ok values =>
      rw [hb] at h
      cases h
    | error f' =>
      rw [hb] at h
      cases h
      rfl
  obtain ⟨before, p, after, hps, hbefore, hp⟩ := bindArguments_error hbind
  rw [hd] at hbefore hp
  refine ⟨before, p, after, hps, fun q hq => ?_, bindArgument_error_iff.1 hp⟩
  obtain ⟨v, hv⟩ := hbefore q hq
  exact not_refuses_of_ok hv

variable {i : Interface} {impl : Implementation ι} {filter : MethodDescriptor → Bool} {data : Params}

theorem IsBoundTo.fate_run (hb : e.IsBoundTo i impl filter) (l : Ledger) (ctx : CallContext)
    (c : MethodCall) : ∃ hs, e.Fate l ctx c hs (e.run l ctx c).2 ∧ (e.run l ctx c).1 = l.record hs := by
  have hr := ran_run e l ctx c
  generalize e.run l ctx c = r at hr
  cases hr with
  | unknown hn =>
    refine ⟨[], .unknown fun b hbm hp => ?_, Ledger.record_nil.symm⟩
    cases hn.symm.trans (hb.binding?_eq_some_iff.2 ⟨hbm, hp⟩)
  | unbound hbind hf =>
    obtain ⟨hbm, hp⟩ := hb.binding?_eq_some_iff.1 hbind
    obtain ⟨before, p, after, hps, hbefore, hrefuse⟩ := refused_of_arguments hp hf
    exact ⟨[], .unbound hbm hp hps hbefore hrefuse, Ledger.record_nil.symm⟩
  | unobtained hbind ha ho =>
    obtain ⟨hbm, hp⟩ := hb.binding?_eq_some_iff.1 hbind
    obtain ⟨hs, r, hobt, heq⟩ := obtains_obtain e c.prototype l
    rw [ho] at heq
    cases r with
    | ok made => cases heq
    | error cause =>
      cases heq
      exact ⟨hs, .unmade hbm hp (takes_of_arguments hp ha) hobt, rfl⟩
  | @invoked b args l' made hbind ha ho =>
    obtain ⟨hbm, hp⟩ := hb.binding?_eq_some_iff.1 hbind
    obtain ⟨hs, r, hobt, heq⟩ := obtains_obtain e c.prototype l
    rw [ho] at heq
    cases r with
    | error cause => cases heq
    | ok made' =>
      cases heq
      have hl : (l.record hs).invocations = l.invocations := by simp [hobt.invokes_nothing]
      have hfate : e.Fate l ctx c _ _ := .ran hbm hp (takes_of_arguments hp ha) ha hobt
      rw [← hl] at hfate
      refine ⟨_, hfate, ?_⟩
      rw [Ledger.record_append]
      rfl

theorem call_eq (e : Endpoint ι) (l : Ledger) (ctx : CallContext) (c : MethodCall) :
    (e.call l ctx c).1 = (e.run l ctx c).1.metered (metersOf e.descriptor.name (e.call l ctx c).2) := by
  rw [call_outcome]
  unfold call
  dsimp only
  split <;> rename_i h <;> rw [h] <;> rfl

theorem IsBoundTo.fate_call (hb : e.IsBoundTo i impl filter) (l : Ledger) (ctx : CallContext)
    (c : MethodCall) : ∃ hs, e.Fate l ctx c hs (e.call l ctx c).2 ∧
      (e.call l ctx c).1 = (l.record hs).metered (metersOf i.name (e.call l ctx c).2) := by
  obtain ⟨hs, hf, hl⟩ := hb.fate_run l ctx c
  rw [call_eq, hl, call_outcome, hb.descriptor.name]
  exact ⟨hs, hf, rfl⟩

/-! ### What a fate tells -/

namespace Fate

variable {r : Except Fault Json} (h : e.Fate l ctx c hs r)

include h

/-- A body runs exactly if an instance was obtained, and then once. -/
theorem invokes : hs.countP Happening.isInvoked = (reachedBody r).toNat := by
  cases h with
  | unknown => rfl
  | unbound _ _ _ _ hf => cases hf <;> rfl
  | unmade _ _ _ ho => exact ho.invokes_nothing
  | @ran b hs made args _ _ _ _ ho =>
    rw [List.countP_append, ho.invokes_nothing]
    cases b.serving.body l.invocations made.value ctx args <;> rfl

/-- Only what the body raises is a failure of the target. -/
theorem target_iff {f : Fault} (hr : r = .error f) :
    f.isTargetFailure = true ↔ ∃ k ∈ hs, k.isInvoked = true := by
  rw [← List.countP_pos_iff, h.invokes, hr]
  simp only [reachedBody]
  cases f.isTargetFailure <;> simp

omit h in
theorem of_shared {shared : Numbered ι} (hshared : e.shared = some shared) (h : e.Fate l ctx c hs r) :
    hs.countP Happening.isBuilt = 0 ∧ ∀ n p, .invoked n p ∈ hs → n = shared.number := by
  have hobt {ks : List Happening} {r : Except String (Numbered ι)} (ho : e.Obtains l ks r) :
      ks = [] ∧ r = .ok shared := by
    cases ho with
    | shared hs =>
      cases hshared.symm.trans hs
      exact ⟨rfl, rfl⟩
    | fresh hs => cases hshared.symm.trans hs
  cases h with
  | unknown | unbound => simp
  | unmade _ _ _ ho =>
    obtain ⟨-, hr⟩ := hobt ho
    cases hr
  | ran _ _ _ _ ho =>
    obtain ⟨rfl, hr⟩ := hobt ho
    cases hr
    simp [Happening.isBuilt]

omit h in
/-- Where nothing is shared, the factory runs exactly for the calls that pass, and then once. -/
theorem builds (hb : e.IsBoundTo i impl filter) (hnone : e.shared = none) (h : e.Fate l ctx c hs r) :
    hs.countP Happening.isBuilt = if e.Passes c then 1 else 0 := by
  have hobt {ks : List Happening} {r : Except String (Numbered ι)} (ho : e.Obtains l ks r) :
      ks.countP Happening.isBuilt = 1 := by
    cases ho with
    | shared hs => cases hnone.symm.trans hs
    | fresh _ hm => exact hm.builds
  cases h with
  | unknown hn =>
    rw [if_neg]
    · rfl
    · rintro ⟨b, hbm, hp, -⟩
      exact hn b hbm hp
  | unbound hbm hp hps _ hf =>
    rw [if_neg]
    · rfl
    · rintro ⟨b, hbm', hp', ht⟩
      -- Prototypes are distinct, so the method that takes the call is the one that refuses it.
      cases (hb.binding?_eq_some_iff.2 ⟨hbm', hp'⟩).symm.trans (hb.binding?_eq_some_iff.2 ⟨hbm, hp⟩)
      exact ht _ (by simp [hps]) _ hf
  | unmade hbm hp ht ho => rw [if_pos ⟨_, hbm, hp, ht⟩, hobt ho]
  | ran hbm hp ht _ ho =>
    rw [if_pos ⟨_, hbm, hp, ht⟩, List.countP_append, hobt ho]
    rfl

end Fate

/-! ## Sessions -/

/-- Runs calls one after the other; what has happened then, and the outcomes in order. -/
def session (e : Endpoint ι) : Ledger → List (CallContext × MethodCall) → Ledger × List (Except Fault Json)
  | l, [] => (l, [])
  | l, (ctx, c) :: cs =>
    let (l, r) := e.call l ctx c
    let (l, rs) := e.session l cs
    (l, r :: rs)

/-- What the calls of a session add up to, from one ledger to another. -/
structure Sums (e : Endpoint ι) (interface : String) (l : Ledger) (cs : List (CallContext × MethodCall))
    (l' : Ledger) (rs : List (Except Fault Json)) : Prop where
  outcomes : rs.length = cs.length
  invocations : l'.invocations = l.invocations + rs.countP reachedBody
  called : l'.readings.count (.called interface) = l.readings.count (.called interface) + cs.length
  timed : l'.readings.count (.callTimed interface) = l.readings.count (.callTimed interface) + cs.length
  failed : l'.readings.count (.callFailed interface) =
    l.readings.count (.callFailed interface) + rs.countP fun r => !r.isOk
  unshared : e.shared = none →
    l'.factoryRuns = l.factoryRuns + cs.countP fun (_, c) => decide (e.Passes c)
  shared : ∀ made, e.shared = some made → l'.factoryRuns = l.factoryRuns ∧
    ∀ n p, .invoked n p ∈ l'.happenings → .invoked n p ∈ l.happenings ∨ n = made.number

variable {cs : List (CallContext × MethodCall)} {l' l'' : Ledger} {rs : List (Except Fault Json)}
  {r : Except Fault Json} {interface : String}

theorem Sums.nil : e.Sums interface l [] l [] where
  outcomes := rfl
  invocations := rfl
  called := rfl
  timed := rfl
  failed := rfl
  unshared _ := rfl
  shared _ _ := ⟨rfl, fun _ _ => .inl⟩

theorem Sums.cons (hb : e.IsBoundTo i impl filter) (hf : e.Fate l ctx c hs r)
    (h : e.Sums interface ((l.record hs).metered (metersOf interface r)) cs l'' rs) :
    e.Sums interface l ((ctx, c) :: cs) l'' (r :: rs) where
  outcomes := by rw [List.length_cons, List.length_cons, h.outcomes]
  invocations := by
    rw [h.invocations, Ledger.invocations_metered, Ledger.invocations_record, hf.invokes,
      List.countP_cons]
    cases reachedBody r
    · simp
    · simp only [Bool.toNat_true, if_true]
      omega
  called := by
    rw [h.called, List.length_cons]
    cases r <;> simp [Ledger.metered, Ledger.record, metersOf] <;> omega
  timed := by
    rw [h.timed, List.length_cons]
    cases r <;> simp [Ledger.metered, Ledger.record, metersOf] <;> omega
  failed := by
    rw [h.failed, List.countP_cons]
    cases r with
    | ok v => simp [Ledger.metered, Ledger.record, metersOf, Except.isOk, Except.toBool]
    | error f =>
      simp only [Ledger.metered, Ledger.record, metersOf, Except.isOk, Except.toBool]
      simp
      omega
  unshared hnone := by
    rw [h.unshared hnone, Ledger.factoryRuns_metered, Ledger.factoryRuns_record, hf.builds hb hnone,
      List.countP_cons]
    simp only [decide_eq_true_eq]
    omega
  shared made hmade := by
    obtain ⟨hbuilt, hinv⟩ := hf.of_shared hmade
    obtain ⟨hruns, hall⟩ := h.shared made hmade
    rw [Ledger.factoryRuns_metered, Ledger.factoryRuns_record, hbuilt, Nat.add_zero] at hruns
    refine ⟨hruns, fun n p hn => ?_⟩
    rcases hall n p hn with hn | hn
    · rcases List.mem_append.1 hn with hn | hn
      · exact .inr (hinv n p (List.mem_reverse.1 hn))
      · exact .inl hn
    · exact .inr hn

theorem IsBoundTo.sums_session (hb : e.IsBoundTo i impl filter) (l : Ledger)
    (cs : List (CallContext × MethodCall)) :
    e.Sums i.name l cs (e.session l cs).1 (e.session l cs).2 := by
  induction cs generalizing l with
  | nil => exact .nil
  | cons x cs ih =>
    obtain ⟨ctx, c⟩ := x
    obtain ⟨hs, hf, hl⟩ := hb.fate_call l ctx c
    have h := ih (e.call l ctx c).1
    rw [hl] at h
    have := Sums.cons hb hf h
    rwa [← hl] at this

/-! ## Endpoints from the start -/

/-- How an endpoint starts out: a stateless implementation has been made once, and is shared; the
other policies share nothing, and nothing has happened. -/
structure IsNew (impl : Implementation ι) (data : Params) (l : Ledger) (e : Endpoint ι) : Prop where
  serves : e.implementation = impl
  holds : e.data = data
  shared : impl.instancing = .stateless → ∃ hs made, impl.Makes data 0 hs (.ok made) ∧
    e.shared = some made ∧ l = Ledger.empty.record hs
  fresh : impl.instancing ≠ .stateless → e.shared = none ∧ l = .empty

theorem isNew_of_build (h : build i impl filter data = (l, .ok e)) : e.IsNew impl data l := by
  unfold build at h
  split at h
  · cases h
  dsimp only at h
  split at h
  · rename_i hst
    have hst : impl.instancing = .stateless := by simpa [Instancing.sharesInstance] using hst
    obtain ⟨hs, hm, hl⟩ := makes_instantiate impl data .empty
    split at h
    · cases h
    · rename_i l' made hmade
      rw [hmade] at hm hl
      cases h
      exact ⟨rfl, rfl, fun _ => ⟨hs, made, hm, rfl, hl⟩, fun hne => absurd hst hne⟩
  · rename_i hst
    cases h
    exact ⟨rfl, rfl, fun heq => absurd (by simp [Instancing.sharesInstance, heq]) hst,
      fun _ => ⟨rfl, rfl⟩⟩

theorem IsNew.invocations (h : e.IsNew impl data l) : l.invocations = 0 := by
  by_cases hst : impl.instancing = .stateless
  · obtain ⟨hs, made, hm, -, rfl⟩ := h.shared hst
    rw [Ledger.invocations_record, hm.invokes_nothing]
    rfl
  · rw [(h.fresh hst).2]
    rfl

theorem IsNew.readings (h : e.IsNew impl data l) : l.readings = [] := by
  by_cases hst : impl.instancing = .stateless
  · obtain ⟨hs, made, -, -, rfl⟩ := h.shared hst
    rfl
  · rw [(h.fresh hst).2]
    rfl

/-- The calls of an endpoint that was built, each and in sum. A stateless implementation is made
once, at construction, and every body runs on that instance; the other policies make an instance for
exactly the calls that pass lookup and binding. A body runs for a call exactly if its instance was
obtained, and then once. The fault is that of the first stage that fails, in the binding that of the
first parameter that refuses, and only the last stage is a failure of the target. Every call is
counted and timed once, and those with a fault are counted apart. -/
theorem calls_accounted (h : build i impl filter data = (l, .ok e)) :
    e.IsNew impl data l ∧
    (∀ l ctx c, ∃ hs, e.Fate l ctx c hs (e.call l ctx c).2 ∧
      (e.call l ctx c).1 = (l.record hs).metered (metersOf i.name (e.call l ctx c).2) ∧
      ∀ f, (e.call l ctx c).2 = .error f → (f.isTargetFailure = true ↔ ∃ k ∈ hs, k.isInvoked = true)) ∧
    ∀ cs l' rs, e.session l cs = (l', rs) → rs.length = cs.length ∧
      (impl.instancing = .stateless → l.factoryRuns = 1 ∧ l'.factoryRuns = 1 ∧
        ∀ n p, .invoked n p ∈ l'.happenings → n = 0) ∧
      (impl.instancing ≠ .stateless →
        l'.factoryRuns = cs.countP fun (_, c) => decide (e.Passes c)) ∧
      l'.invocations = rs.countP reachedBody ∧
      l'.readings.count (.called i.name) = cs.length ∧
      l'.readings.count (.callTimed i.name) = cs.length ∧
      l'.readings.count (.callFailed i.name) = rs.countP fun r => !r.isOk := by
  have hnew := isNew_of_build h
  have hb : e.IsBoundTo i impl filter := isBoundTo_of_build (by rw [h])
  refine ⟨hnew, fun l ctx c => ?_, fun cs l' rs hs => ?_⟩
  · obtain ⟨hs, hf, hl⟩ := hb.fate_call l ctx c
    exact ⟨hs, hf, hl, fun f => hf.target_iff⟩
  · have hsums := hb.sums_session l cs
    rw [hs] at hsums
    have hcalled := hsums.called
    have htimed := hsums.timed
    have hfailed := hsums.failed
    simp only [hnew.readings, List.count_nil, Nat.zero_add] at hcalled htimed hfailed
    refine ⟨hsums.outcomes, fun hst => ?stateless, fun hne => ?fresh, ?invocations, hcalled, htimed, hfailed⟩
    case stateless =>
      obtain ⟨ks, made, hm, hmade, hl⟩ := hnew.shared hst
      obtain ⟨hruns, hinv⟩ := hsums.shared made hmade
      have hbuilt : l.factoryRuns = 1 := by
        rw [hl, Ledger.factoryRuns_record, hm.builds]
        rfl
      refine ⟨hbuilt, hruns.trans hbuilt, fun n p hn => ?_⟩
      rcases hinv n p hn with hn | hn
      · have hnone : l.happenings.countP Happening.isInvoked = 0 := by
          rw [← Ledger.invocations_eq, hnew.invocations]
        exact absurd rfl (List.countP_eq_zero.1 hnone _ hn)
      · rw [hn, hm.number]
    case fresh =>
      obtain ⟨hnone, rfl⟩ := hnew.fresh hne
      have hruns := hsums.unshared hnone
      rwa [show Ledger.empty.factoryRuns = 0 from rfl, Nat.zero_add] at hruns
    case invocations => rw [hsums.invocations, hnew.invocations, Nat.zero_add]

/-- An implementation with an instance for each call, whose second factory run and second body fail. -/
def sampleTeller : Implementation Nat where
  name := "Teller"
  instancing := .stateful
  build n _ := if n = 1 then .error "no teller" else .ok n
  inject := none
  methods := [
    ⟨"quote", [.primitive .int, .primitive .short, .string, .foreign "Any"], .string, true,
      fun _ _ _ args => .ok (.object args.values)⟩,
    ⟨"reset", [], .boxed .boolean, true,
      fun runs _ _ _ => if runs = 1 then .error "closed" else .ok (.bool true)⟩]

/-- A call for each way to fail, and one that goes well. -/
def sampleCalls : List (CallContext × MethodCall) :=
  ["Rates.open()z", "Rates.quote(ISTO)T", "Rates.reset()z", "Rates.reset()z", "Rates.reset()z"].map
    fun p => (⟨none, .empty⟩, ⟨p, []⟩)

theorem calls_accounted_sample :
    ∃ e l rs, build sampleInterface sampleTeller (fun _ => true) .empty = (.empty, .ok e) ∧
      e.session .empty sampleCalls = (l, rs) ∧ l.factoryRuns = 3 ∧ l.invocations = 2 ∧
      l.readings.count (.called "Rates") = 5 ∧ l.readings.count (.callFailed "Rates") = 4 := by
  obtain ⟨e, he⟩ : ∃ e, build sampleInterface sampleTeller (fun _ => true) .empty = (.empty, .ok e) :=
    ⟨_, rfl⟩
  have hcount : sampleCalls.countP (fun (_, c) => decide (e.Passes c)) = 3 := by
    cases he
    decide
  have hreached : (e.session .empty sampleCalls).2.countP reachedBody = 2 := by
    cases he
    decide
  have hfailed : (e.session .empty sampleCalls).2.countP (fun r => !r.isOk) = 4 := by
    cases he
    decide
  obtain ⟨-, -, hsums⟩ := calls_accounted he
  obtain ⟨-, -, hruns, hinv, hcalled, -, hfail⟩ := hsums sampleCalls _ _ rfl
  exact ⟨e, _, _, he, rfl, (hruns (by decide)).trans hcount, hinv.trans hreached, hcalled,
    hfail.trans hfailed⟩

end Endpoint
end Switchboard.Rpc
