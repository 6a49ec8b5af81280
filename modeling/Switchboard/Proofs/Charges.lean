import Switchboard.Proofs.Metering

/-!
# What a request adds to the books

The stages of a handler, each with what it adds to the balances. Whatever way a request
goes, and whatever fails in it, in the end its fault is all that the books show; a
dispatch to a domain adds that the event was dispatched, and that nobody took it.
-/

namespace Switchboard.Container

open Activity
open Store (Books)

/-! ## The stages of a handler -/

/-- While the activity at hand waits, the others may open gates. -/
def OpensGates (s t : Store) : Prop := ∃ gates, t = { s with gates }

/-- A fault, or an instance of which `P` holds and with which the books have changed by `d`. -/
def Yields (s : Store) (d : Charge) (P : Store → InstanceId → Prop) : Except Fault InstanceId → Store → Prop
  | .error f, t => Books s t f.charge
  | .ok i, t => Books s t d ∧ P t i

/-- An instance that is initialized for the handler. -/
abbrev Supplied (s : Store) (handler : String) : Except Fault InstanceId → Store → Prop :=
  Yields s 0 fun t i => t.Labelled i handler

/-- An instance that is to be initialized for the handler next. -/
abbrev Built (s : Store) (handler : String) : Except Fault InstanceId → Store → Prop :=
  Yields s (opened handler) Store.Raw

section

variable {s t u : Store} {r : RegistrationId} {i : InstanceId} {handler : String}

theorem Store.books_opensGates (h : s.Marked) (hu : OpensGates s u) : Books s u 0 := by
  obtain ⟨gates, rfl⟩ := hu
  exact books_of_eq h rfl rfl rfl rfl rfl (.refl _)

theorem Store.Books.yields {d : Charge} {P : Store → InstanceId → Prop} {out : Except Fault InstanceId}
    (h : Books s t 0) (k : Yields t d P out u) : Yields s d P out u := by
  cases out with
  | error f => exact (h.trans k).congr (zero_add _)
  | ok i => exact ⟨(h.trans k.1).congr (zero_add _), k.2⟩

theorem instantiate_built (h : s.Marked) (hr : (s.registration r).name = handler) :
    Built s handler (s.instantiate r).2 (s.instantiate r).1 := by
  subst hr
  have hbegun := Store.books_note h
    (a := .constructing (s.registration r).cls (s.runs (s.registration r).cls .construct)) rfl
  unfold Store.instantiate
  dsimp only
  split
  next cause _ =>
    have hnoted := hbegun.then
      (Store.books_note hbegun.marked (a := .constructed (s.registration r).cls (.error cause)) rfl)
    refine (hnoted.trans (Store.books_measure hnoted.marked _)).congr ?_
    rw [zero_add, bill_construct]
    rfl
  next =>
    obtain ⟨hbuilt, hraw⟩ := Store.books_build hbegun.marked
      (a := { cls := (s.registration r).cls, number := s.runs (s.registration r).cls .construct }) rfl
    have hnoted := (hbegun.trans hbuilt).then
      (Store.books_note hbuilt.marked (a := .constructed (s.registration r).cls (.ok s.instances.size)) rfl)
    refine ⟨(hnoted.trans (Store.books_measure hnoted.marked (.created (s.registration r).name))).congr ?_, hraw⟩
    funext a name
    simp only [opened, Pi.add_apply, Pi.zero_apply, Pi.sub_apply]
    split <;> omega

theorem setUp_books (h : s.Marked) (hi : s.Raw i) (hr : (s.registration r).name = handler) :
    Ensures OpensGates (setUp r i) (fun _ _ t => Books s t (-opened handler) ∧ t.Labelled i handler) s := by
  simp only [setUp, runInit, ensures_bind, ensures_act, ensures_yield]
  intro u hu
  obtain ⟨hconfigured, hname⟩ := Store.books_configure h r
  have hraw : (s.configure r).1.Raw i := hi
  obtain ⟨hset, hlabel⟩ := Store.books_label hconfigured.marked hraw (s.configure r).2
  rw [hname, hr] at hset hlabel
  have hnoted := Store.books_note hset.marked (a := .initializing (s.classOfInstance i) i (s.configure r).2) rfl
  have hwaited := hnoted.then (Store.books_opensGates hnoted.marked hu)
  have hdone : ∀ outcome, Books u (u.note (.initialized (s.classOfInstance i) i outcome)) 0 := fun outcome =>
    Store.books_note hwaited.marked rfl
  refine ⟨((hconfigured.trans (hset.then hwaited)).congr (zero_add _)).then (hdone _), ?_⟩
  exact (hdone _).labels i _ (hwaited.labels i _ hlabel)

/-- To wait for a permit changes nothing but the gates. -/
theorem linger_books (h : s.Marked) (cls : ClassId) :
    Ensures OpensGates (linger cls) (fun _ _ t => Books s t 0) s := by
  simp only [linger, ensures_bind, ensures_get]
  split
  · simp only [passGate, ensures_bind, ensures_act, ensures_waitUntil]
    rintro _ ⟨gates, rfl⟩ _
    exact Store.books_opensGates h ⟨gates, rfl⟩
  · simp only [ensures_yield]
    exact fun u hu => Store.books_opensGates h hu

/-- What a failed run leaves open until it is metered. -/
def unmetered (handler : String) : Except String Unit → Charge
  | .error _ => -bill (.failed handler .process)
  | .ok () => 0

theorem process_books (h : s.Marked) (hi : s.Labelled i handler) (e : RequestEvent) :
    Ensures OpensGates (process i e) (fun _ out t => Books s t (unmetered handler out.2)) s := by
  simp only [process, ensures_bind, ensures_act]
  have hbegun := Store.books_note h (a := .processing (s.classOfInstance i) i) rfl
  refine (linger_books hbegun.marked _).mono fun _ _ u hu => ?_
  have hran := Store.books_perform hu.marked (s.classOfInstance i) i e.request e.response
  have hdone := (hbegun.then hu).then hran
  cases hout : (u.perform (s.classOfInstance i) i e.request e.response).2.2 with
  | ok => exact hdone.then (Store.books_note hran.marked rfl)
  | error cause =>
    have hnoted := Store.books_note_lost hran.marked (a := .processed (s.classOfInstance i) i (.error cause)) rfl
      (hdone.labels i _ hi)
    exact (hdone.trans hnoted).congr (zero_add _)

theorem destroy_books (h : s.Marked) (i : InstanceId) :
    Ensures OpensGates (destroy i) (fun _ _ t => Books s t 0) s := by
  simp only [destroy, runDestroy, ensures_bind, ensures_act, ensures_yield, ensures_modify]
  intro u hu
  have hbegun := Store.books_note h (a := .destroying (s.classOfInstance i) i) rfl
  have hwaited := hbegun.then (Store.books_opensGates hbegun.marked hu)
  exact hwaited.then (Store.books_note hwaited.marked rfl)

/-! ## Obtaining -/

theorem buildShared_supplied (h : s.Marked) (hr : (s.registration r).name = handler) :
    Ensures OpensGates (buildShared r) (fun _ => Supplied s handler) s := by
  simp only [buildShared, ensures_bind, ensures_act]
  have hbuilt := instantiate_built h hr
  split
  next f hf =>
    rw [hf] at hbuilt
    simp only [ensures_bind, ensures_modify, ensures_pure]
    exact Books.then hbuilt (Store.books_setLocked hbuilt.marked r false)
  next i hi =>
    rw [hi] at hbuilt
    obtain ⟨hbuilt, hraw⟩ := hbuilt
    have hsetUp := setUp_books hbuilt.marked hraw ((hbuilt.name_eq r).trans hr)
    refine ensures_bind.2 (hsetUp.mono fun _ out t ht => ?_)
    have hset : Books s t 0 := (hbuilt.trans ht.1).congr (add_neg_cancel _)
    have hname : (t.registration r).name = handler := (hset.name_eq r).trans hr
    cases out with
    | error cause =>
      have hdropped := Store.books_drop hset.marked i
      have hunlocked := hset.then (hdropped.then (Store.books_setLocked hdropped.marked r false))
      refine ensures_act.2 ?_
      exact (hunlocked.trans (Store.books_measure hunlocked.marked _)).congr (zero_add _)
    | ok =>
      simp only [place, ensures_bind, ensures_modify, ensures_pure]
      have hpublished := Store.books_publish hset.marked (r := r) (by rw [hname]; exact ht.2)
      exact ⟨hset.then hpublished, hpublished.labels i _ ht.2⟩

theorem share_supplied (h : s.Marked) (hr : (s.registration r).name = handler) :
    Books s (s.share r).1 0 ∧ ∀ i, (s.share r).2 = some i → Supplied s handler (.ok i) (s.share r).1 := by
  obtain ⟨hshared, hfound⟩ := Store.books_share h r
  exact ⟨hshared, fun i hi => ⟨hshared, hr ▸ hfound i hi⟩⟩

theorem shareOrBuild_supplied (h : s.Marked) (hr : (s.registration r).name = handler) :
    Ensures OpensGates (shareOrBuild r) (fun _ => Supplied s handler) s := by
  simp only [shareOrBuild, ensures_bind, ensures_waitUntil, ensures_act]
  intro u hu _
  have hwaited := Store.books_opensGates h hu
  obtain ⟨hshared, hfound⟩ := share_supplied hwaited.marked ((hwaited.name_eq r).trans hr)
  split
  next i hi => exact ensures_pure.2 (hwaited.yields (hfound i hi))
  next =>
    simp only [ensures_bind, ensures_modify]
    have hlocked := (hwaited.then hshared).then (Store.books_setLocked hshared.marked r true)
    have hbuilds := buildShared_supplied hlocked.marked ((hlocked.name_eq r).trans hr)
    exact hbuilds.mono fun _ _ _ ht => hlocked.yields ht

theorem obtainShared_supplied (h : s.Marked) (hr : (s.registration r).name = handler) :
    Ensures OpensGates (obtainShared r) (fun _ => Supplied s handler) s := by
  simp only [obtainShared, ensures_bind, ensures_waitUntil, ensures_act]
  intro u hu _
  have hwaited := Store.books_opensGates h hu
  obtain ⟨hshared, hfound⟩ := share_supplied hwaited.marked ((hwaited.name_eq r).trans hr)
  split
  next i hi => exact ensures_pure.2 (hwaited.yields (hfound i hi))
  next =>
    have hlooked := hwaited.then hshared
    have hshares := shareOrBuild_supplied hlooked.marked ((hlooked.name_eq r).trans hr)
    exact hshares.mono fun _ _ _ ht => hlooked.yields ht

theorem deliver_yields {d : Charge} {P : Store → InstanceId → Prop} {out : Except Fault InstanceId}
    (h : Yields s d P out t) (r : RegistrationId) :
    Ensures OpensGates (deliver r out) (fun _ => Yields s d P) t := by
  cases out with
  | ok i => exact ensures_pure.2 h
  | error f =>
    simp only [deliver, ensures_bind, ensures_modify, ensures_pure]
    exact Books.then h (Store.books_releaseSlot h.marked r)

/-- A shared instance is initialized when it is handed out; any other is to be initialized next. -/
def Handed (s : Store) (r : RegistrationId) (out : Except Fault InstanceId) (t : Store) : Prop :=
  if (s.registration r).instancing.sharesInstance then Supplied s (s.registration r).name out t
  else Built s (s.registration r).name out t

theorem Handed.failed {f : Fault} (h : Handed s r (.error f) t) : Books s t f.charge := by
  unfold Handed at h
  split at h
  · exact h
  · exact h

theorem Handed.name_eq (h : Handed s r (.ok i) t) : (t.registration r).name = (s.registration r).name := by
  unfold Handed at h
  split at h
  · exact h.1.name_eq r
  · exact h.1.name_eq r

theorem createHandler_hands (h : s.Marked) (r : RegistrationId) :
    Ensures OpensGates (createHandler r) (fun _ => Handed s r) s := by
  simp only [createHandler, ensures_bind, ensures_act]
  have hleased : Books s (s.updateRegistration r fun g => { g with active := g.active + 1 }) 0 :=
    Store.books_useRegistration h r (fun _ => rfl) (fun _ => rfl) fun _ => rfl
  have hname := hleased.name_eq r
  unfold Handed
  split
  · exact (obtainShared_supplied hleased.marked hname).mono fun _ _ _ ht => deliver_yields (hleased.yields ht) r
  · exact ensures_act.2 (deliver_yields (hleased.yields (instantiate_built hleased.marked hname)) r)

/-! ## Requests -/

/-- What was handed out is initialized for the handler before the request is run, or the request fails. -/
theorem prepare_books (h : Handed s r (.ok i) t) :
    Ensures OpensGates (prepare r i (t.registration r).instancing.sharesInstance)
      (fun _ out u => Books s u (charge out) ∧ u.Labelled i (s.registration r).name) t := by
  unfold Handed at h
  split at h
  next hshares =>
    rw [h.1.sharesInstance_eq, hshares]
    exact ensures_pure.2 h
  next hown =>
    rw [h.1.sharesInstance_eq, Bool.eq_false_iff.2 hown]
    refine ensures_bind.2 ((setUp_books h.1.marked h.2 (h.1.name_eq r)).mono fun _ out u hu => ?_)
    have hset : Books s u 0 := (h.1.trans hu.1).congr (add_neg_cancel _)
    cases out with
    | ok => exact ensures_pure.2 ⟨hset, hu.2⟩
    | error cause =>
      have hmetered := Store.books_measure hset.marked (.failed (u.registration r).name .init)
      exact ensures_act.2 ⟨(hset.trans hmetered).congr (zero_add _), hmetered.labels i _ hu.2⟩

theorem finish_books (h : s.Marked) (r : RegistrationId) (i : InstanceId) (handler : String) (e : RequestEvent)
    (outcome : Except String Unit) : Ensures OpensGates (finish r i handler e outcome)
      (fun _ out t => Books s t (-unmetered handler outcome) ∧ charge out.2 = 0) s := by
  refine ensures_bind.2 (ensures_modify.2 ?_)
  have hgiven := Store.books_giveBack h r i
  cases outcome with
  | ok => exact ensures_pure.2 ⟨hgiven.congr neg_zero.symm, rfl⟩
  | error cause =>
    simp only [ensures_bind, ensures_modify, ensures_pure]
    refine ⟨(hgiven.trans (Store.books_measure hgiven.marked _)).congr ?_, rfl⟩
    rw [zero_add, unmetered, neg_neg]

/-- Whatever the store, work that ends with `a` adds `d a` to the books. -/
def Bills {α : Type} (x : Work α) (d : α → Charge) : Prop :=
  ∀ s : Store, s.Marked → Ensures OpensGates x (fun _ a t => Books s t (d a)) s

/-- Whatever a request comes to, the books show its fault and nothing else. -/
theorem bills_invoke (r : RegistrationId) (e : RequestEvent) : Bills (invoke r e) fun out => charge out.2 := by
  intro s h
  refine ensures_bind.2 ((createHandler_hands h r).mono fun _ got t ht => ?_)
  cases got with
  | error f => exact ensures_pure.2 ht.failed
  | ok i =>
    have hname := ht.name_eq
    refine ensures_bind.2 (ensures_get.2 (ensures_bind.2 ((prepare_books ht).mono fun _ ready u hu => ?_)))
    cases ready with
    | error f =>
      simp only [ensures_bind, ensures_modify, ensures_pure]
      exact hu.1.then (Store.books_giveBack hu.1.marked r i)
    | ok =>
      refine ensures_bind.2 ((process_books hu.1.marked hu.2 e).mono fun _ ran v hv => ?_)
      have hran : Books s v (unmetered (s.registration r).name ran.2) := (hu.1.trans hv).congr (zero_add _)
      have hfinish : ∀ w, Books s w (unmetered (s.registration r).name ran.2) →
          Ensures OpensGates (finish r i (t.registration r).name ran.1 ran.2)
            (fun _ out t => Books s t (charge out.2)) w := fun w hw => by
        refine (finish_books hw.marked r i _ _ _).mono fun _ out x hx => (hw.trans hx.1).congr ?_
        rw [hname, add_neg_cancel, hx.2]
      dsimp only
      split
      · exact ensures_bind.2 ((destroy_books hv.marked i).mono fun _ _ w hw => hfinish w (hran.then hw))
      · exact hfinish v hran

end

/-! ## Work whose charge is told by its outcome -/

section

variable {α β : Type} {s t : Store} {r : RegistrationId} {i : InstanceId}

theorem bills_pure {a : α} {d : α → Charge} (h : d a = 0) : Bills (pure a) d :=
  fun _ hs => ensures_pure.2 (h ▸ .refl hs)

/-- What is still to be added is what the whole adds less what the first part did. -/
theorem Bills.bind {x : Work α} {f : α → Work β} {d : α → Charge} {k : β → Charge} (hx : Bills x d)
    (hf : ∀ a, Bills (f a) fun b => k b - d a) : Bills (x >>= f) k := by
  intro s hs
  refine ensures_bind.2 ((hx s hs).mono fun _ a u hu => (hf a u hu.marked).mono fun _ b t ht => ?_)
  exact (hu.trans ht).congr (add_sub_cancel _ _)

theorem Bills.congr {x : Work α} {d k : α → Charge} (hx : Bills x d) (h : ∀ a, d a = k a) : Bills x k :=
  fun s hs => (hx s hs).mono fun _ a _ ht => ht.congr (h a)

/-- Where the first part adds nothing, the rest adds everything. -/
theorem Bills.free_bind {x : Work α} {f : α → Work β} {k : β → Charge} (hx : Bills x fun _ => 0)
    (hf : ∀ a, Bills (f a) k) : Bills (x >>= f) k :=
  hx.bind fun a => (hf a).congr fun _ => (sub_zero _).symm

theorem bills_get : Bills (get : Work Store) fun _ => 0 := fun _ hs => ensures_get.2 (.refl hs)

theorem bills_act {f : Store → Store × α} {d : α → Charge}
    (h : ∀ s : Store, s.Marked → Books s (f s).1 (d (f s).2)) : Bills (act f) d :=
  fun s hs => ensures_act.2 (h s hs)

theorem bills_modify {f : Store → Store} (h : ∀ s : Store, s.Marked → Books s (f s) 0) :
    Bills (modify f) fun _ => 0 := fun s hs => ensures_modify.2 (h s hs)

theorem bills_waitUntil (pass : Store → Bool) (wake : Store → Signal) : Bills (waitUntil pass wake) fun _ => 0 :=
  fun _ hs => ensures_waitUntil.2 fun _ hu _ => Store.books_opensGates hs hu

theorem bills_yield (wake : Signal) : Bills (yield wake) fun _ => 0 :=
  fun _ hs => ensures_yield.2 fun _ hu => Store.books_opensGates hs hu

/-! ### Dispatches -/

theorem bills_consult (g : Registration) (e : RequestEvent) : Bills (consult g e) fun out => charge out.2 := by
  unfold consult
  cases g.hook with
  | none => exact bills_pure rfl
  | some hook =>
    refine Bills.free_bind (bills_act fun s hs => Store.books_note hs rfl) fun asked => ?_
    refine (bills_yield _).free_bind fun _ => ?_
    split
    · exact bills_pure rfl
    · refine Bills.free_bind (bills_act fun s hs => Store.books_note hs rfl) fun answer => ?_
      refine (bills_yield _).free_bind fun _ => ?_
      split
      · exact bills_pure rfl
      · exact bills_pure rfl

theorem bills_dispatchContext (d : ComponentId) (e : RequestEvent) :
    Bills (dispatchContext d e) fun out => charge out.2 := by
  refine bills_get.free_bind fun s => ?_
  split
  · exact bills_pure rfl
  split
  · exact bills_pure rfl
  dsimp only
  split
  · exact bills_pure rfl
  split
  · refine (bills_consult _ e).bind fun out => ?_
    split
    · exact bills_pure (sub_self _)
    · exact bills_pure (sub_self _)
    · exact (bills_invoke _ _).congr fun _ => (sub_zero _).symm
  · exact bills_invoke _ _

theorem bills_offer {dispatch : ComponentId → RequestEvent → Work Handled}
    (hdispatch : ∀ c e, Bills (dispatch c e) fun out => charge out.2) (cs : List ComponentId) (e : RequestEvent) :
    Bills (offer dispatch cs e) fun out => charge out.2 := by
  induction cs generalizing e with
  | nil => exact bills_pure rfl
  | cons c cs ih =>
    refine (hdispatch c e).bind fun out => ?_
    split
    · exact bills_pure (sub_self _)
    · split
      · exact bills_pure (sub_self _)
      · exact (ih _).congr fun _ => (sub_zero _).symm

theorem bills_dispatchService (c : ComponentId) (e : RequestEvent) :
    Bills (dispatchService c e) fun out => charge out.2 := by
  refine bills_get.free_bind fun s => ?_
  split
  · exact bills_dispatchContext _ e
  · exact bills_pure rfl

theorem bills_dispatchServer (c : ComponentId) (e : RequestEvent) :
    Bills (dispatchServer c e) fun out => charge out.2 := by
  refine bills_get.free_bind fun s => (bills_offer bills_dispatchService _ e).bind fun out => bills_pure ?_
  cases out.2 with
  | error f => exact sub_self _
  | ok b => exact sub_self _

/-- What was not handled before is handled after an offer if the offer says so. -/
theorem offer_handled {rely : Store → Store → Prop} {dispatch : ComponentId → RequestEvent → Work Handled}
    (cs : List ComponentId) {e : RequestEvent} (he : e.handled = false) (s : Store) :
    Ensures rely (offer dispatch cs e) (fun _ out _ => ∀ b, out.2 = .ok b → out.1.handled = b) s := by
  induction cs generalizing e s with
  | nil => exact ensures_pure.2 fun b hb => Except.ok.inj hb ▸ he
  | cons c cs ih =>
    refine ensures_bind.2 (.of_forall fun _ out u => ?_)
    split
    · exact ensures_pure.2 fun b hb => nomatch hb
    · split
      next hh => exact ensures_pure.2 fun b hb => Except.ok.inj hb ▸ hh
      next hh => exact ih (Bool.eq_false_iff.2 hh) u

/-- An event came back that nobody took. -/
def isUnclaimed : Handled → Bool
  | (e, .ok ()) => !e.handled
  | (_, .error _) => false

/-- What a dispatch to a domain adds to the books. -/
def dispatchCharge (domain : String) (out : Handled) : Charge :=
  bill (.dispatched domain) + (if isUnclaimed out then bill (.unhandled domain) else 0) + charge out.2

theorem dispatchDomain_books (h : s.Marked) (c : ComponentId) {e : RequestEvent} (he : e.handled = false) :
    Ensures OpensGates (dispatchDomain c e) (fun _ out t => Books s t (dispatchCharge (s.name c) out)) s := by
  refine ensures_bind.2 (ensures_modify.2 (ensures_bind.2 (ensures_get.2 (ensures_bind.2 ?_))))
  have hcounted := Store.books_measure h (.dispatched (s.name c))
  refine ((bills_offer bills_dispatchServer _ e _ hcounted.marked).and (offer_handled _ he _)).mono ?_
  rintro - ⟨e', out⟩ u ⟨hu, hhandled⟩
  have hoffered := hcounted.trans hu
  split
  next f heq =>
    cases heq
    exact ensures_pure.2 (hoffered.congr (by simp [dispatchCharge, isUnclaimed]))
  next heq =>
    cases heq
    have htaken : e'.handled = true := hhandled true rfl
    exact ensures_pure.2 (hoffered.congr (by simp [dispatchCharge, isUnclaimed, htaken]))
  next heq =>
    cases heq
    have hleft : e'.handled = false := hhandled false rfl
    refine ensures_bind.2 (ensures_modify.2 (ensures_pure.2 ?_))
    have hmissed := Store.books_measure hoffered.marked (.unhandled (u.name c))
    rw [hoffered.domain_eq] at hmissed ⊢
    refine (hoffered.trans hmissed).congr ?_
    simp [dispatchCharge, isUnclaimed, hleft]

/-! ### Teardown and preloading -/

theorem bills_destroy (i : InstanceId) : Bills (destroy i) fun _ => 0 := fun _ hs => destroy_books hs i

theorem bills_retire (r : RegistrationId) (i : InstanceId) : Bills (retire r i) fun _ => 0 := by
  have hdrop : Bills (.modify (·.drop i)) fun _ => 0 := bills_modify fun s hs => Store.books_drop hs i
  refine (bills_waitUntil _ _).free_bind fun _ => bills_get.free_bind fun s => ?_
  split
  · exact (bills_destroy i).free_bind fun _ => hdrop
  · exact hdrop

theorem bills_teardown (r : RegistrationId) : Bills (teardown r) fun _ => 0 := by
  refine (bills_waitUntil _ _).free_bind fun _ => ?_
  refine Bills.free_bind (bills_act fun s hs => Store.books_takeShared hs r) fun taken => ?_
  cases taken with
  | none => exact bills_pure rfl
  | some i => exact bills_retire r i

theorem bills_teardownAll (rs : List RegistrationId) : Bills (teardownAll rs) fun _ => 0 := by
  induction rs with
  | nil => exact bills_pure rfl
  | cons r rs ih => exact (bills_teardown r).free_bind fun _ => ih

theorem bills_preload (r : RegistrationId) : Bills (preload r) charge := by
  intro s hs
  refine ensures_bind.2 (ensures_get.2 ?_)
  split
  next hshares =>
    refine ensures_bind.2 ((createHandler_hands hs r).mono fun _ got u hu => ?_)
    rw [Handed, if_pos hshares] at hu
    cases got with
    | error f => exact ensures_pure.2 hu
    | ok i =>
      simp only [ensures_bind, ensures_modify, ensures_pure]
      exact hu.1.then (Store.books_giveBack hu.1.marked r i)
  next => exact ensures_pure.2 (.refl hs)

end

end Switchboard.Container
