import Mathlib.Data.List.Nodup
import Switchboard.Proofs.Building
import Switchboard.Proofs.Guards
import Switchboard.Proofs.Routing

/-!
# How an event fares

An event in a dispatch is passed over, is served by one registration, or is refused
by the hook of one. What a hook gives back for an event that it refuses is offered
on when it is unmarked, as if it had just come in, so an event may meet one refusal
after the other. `Fares` says all that can come of this: no registration is met
twice, since no two services file the same one, and each refusal is for a
registration whose hook said no to the very event that it was asked about.
-/

namespace Switchboard.Container

open Activity

/-! ## Leases and questions -/

/-- What a hook says, or is made to do. -/
def Act.isAnswer : Act → Bool
  | asked .. => true
  | refused .. => true
  | _ => false

/-- A request is counted at the registration, which comes before anything that is done for it there. -/
def Leases (r : RegistrationId) (own : List (Store × Store)) : Prop :=
  ∃ w ∈ own, (w.1.registration r).active < (w.2.registration r).active

/-- The hook is asked whether an event may reach a handler, and answers. -/
def Asks (hook : CapabilityHook) (h : HookId) (handler : String) (e : RequestEvent) (answer : Bool)
    (own : List (Store × Store)) : Prop :=
  ∃ w ∈ own, hook.admits (w.1.questions h) handler e = answer ∧ w.2 = w.1.note (.asked h handler answer)

/-- Nothing is noted, and no request is counted. -/
def Blank (own : List (Store × Store)) : Prop := noted own = [] ∧ ∀ r, ¬ Leases r own

/-- No request is counted, and nothing is done except that hooks answer. -/
def Idle (own : List (Store × Store)) : Prop := (∀ a ∈ noted own, a.isAnswer = true) ∧ ∀ r, ¬ Leases r own

/-- The event is served by one registration, the only one that it is counted at; before and after that
nothing is done except that hooks answer. -/
structure Serving (rely : Store → Store → Prop) (r : RegistrationId) (e : RequestEvent)
    (own : List (Store × Store)) : Prop where
  counted : ∀ r', Leases r' own ↔ r' = r
  during : ∃ before served after s out t, own = before ++ served ++ after ∧ Idle before ∧ Idle after ∧
    Runs rely (serve r e) s served out t

section

variable {r r' : RegistrationId} {own own' : List (Store × Store)} {s t : Store} {hook : CapabilityHook}
  {h : HookId} {handler : String} {e : RequestEvent} {answer : Bool}

theorem leases_append : Leases r (own ++ own') ↔ Leases r own ∨ Leases r own' := by
  simp only [Leases, List.mem_append, or_and_right, exists_or]

theorem Asks.append_left (ha : Asks hook h handler e answer own) (own' : List (Store × Store)) :
    Asks hook h handler e answer (own' ++ own) := by
  obtain ⟨w, hw, hq⟩ := ha
  exact ⟨w, List.mem_append_right own' hw, hq⟩

theorem Asks.append_right (ha : Asks hook h handler e answer own) (own' : List (Store × Store)) :
    Asks hook h handler e answer (own ++ own') := by
  obtain ⟨w, hw, hq⟩ := ha
  exact ⟨w, List.mem_append_left own' hw, hq⟩

theorem blank_nil : Blank [] := ⟨rfl, fun r => by simp [Leases]⟩

theorem Blank.idle (hb : Blank own) : Idle own := ⟨by simp [hb.1], hb.2⟩

theorem Idle.append (h : Idle own) (k : Idle own') : Idle (own ++ own') := by
  refine ⟨fun a ha => ?_, fun r hl => ?_⟩
  · rw [noted_append] at ha
    exact (List.mem_append.1 ha).elim (h.1 a) (k.1 a)
  · exact (leases_append.1 hl).elim (h.2 r) (k.2 r)

theorem Serving.append {rely : Store → Store → Prop} {during before after : List (Store × Store)}
    (h : Serving rely r e during) (hb : Idle before) (ha : Idle after) :
    Serving rely r e (before ++ during ++ after) := by
  refine ⟨fun r' => ?_, ?_⟩
  · rw [leases_append, leases_append, or_iff_left (ha.2 r'), or_iff_right (hb.2 r')]
    exact h.counted r'
  · obtain ⟨before', served, after', s, out, t, rfl, hb', ha', hrun⟩ := h.during
    refine ⟨before ++ before', served, after' ++ after, s, out, t, ?_, hb.append hb', ha'.append ha, hrun⟩
    simp only [List.append_assoc]

theorem Serving.after {rely : Store → Store → Prop} {before during : List (Store × Store)}
    (h : Serving rely r e during) (hb : Idle before) : Serving rely r e (before ++ during) := by
  simpa using h.append hb blank_nil.idle

end

/-! ## Serving and refusing -/

section

variable {rely : Store → Store → Prop} {r : RegistrationId} {s : Store}

end

/-! ## How an event fares -/

/-- An event that a hook refused, for a registration, and what the hook gave back for it. -/
structure Rebuff where
  registration : RegistrationId
  hook : HookId
  event : RequestEvent
  left : RequestEvent
  outcome : Except String Unit

/-- The hook of the registration, as of `s`, is asked about the event and says no. Then it is handed the
event marked, and gives back what is left. That is all that is done. -/
structure Rebuff.Occurs (s : Store) (f : Rebuff) (own : List (Store × Store)) : Prop where
  hook : (s.registration f.registration).hook = some f.hook
  asks : Asks (s.hooks.getD f.hook default) f.hook (s.registration f.registration).name f.event false own
  left : ∃ n, (s.hooks.getD f.hook default).refuse n (s.registration f.registration).name
    { f.event with handled := true } = (f.left, f.outcome)
  noted : noted own = [.asked f.hook (s.registration f.registration).name false,
    .refused f.hook (s.registration f.registration).name]
  leases : ∀ r, ¬ Leases r own

/-- How an event can fare that may meet the registrations of `W`, as of `s`, and what hooks refuse on the
way. -/
inductive Fares (rely : Store → Store → Prop) (s : Store) (param : String) :
    (RegistrationId → Prop) → RequestEvent → List Rebuff → List (Store × Store) → Handled → Prop
  /-- Nobody takes it. -/
  | passed {W : RegistrationId → Prop} {e : RequestEvent} {own : List (Store × Store)} : Blank own →
      Fares rely s param W e [] own (e, .ok ())
  /-- One registration serves it, after its hook has let it pass if the handler is restricted. -/
  | served {W : RegistrationId → Prop} {e : RequestEvent} {r : RegistrationId} {own : List (Store × Store)}
      {out : Handled} : W r →
      ((s.registration r).isRestricted param = true → ∃ h, (s.registration r).hook = some h ∧
        Asks (s.hooks.getD h default) h (s.registration r).name e true own) →
      (∀ h n, Act.asked h n false ∉ noted own) → Serving rely r e own → out.1.handled = true →
      Fares rely s param W e [] own out
  /-- A hook refuses it, and gives it back marked or with a fault. -/
  | refused {W : RegistrationId → Prop} {f : Rebuff} {own : List (Store × Store)} {out : Handled} :
      W f.registration → f.Occurs s own → out.1 = f.left →
      (f.outcome = .ok () ∧ out.2 = .ok () ∧ f.left.handled = true ∨ ∃ cause, f.outcome = .error cause ∧
        out.2 = .error (.handler (s.registration f.registration).name cause)) →
      Fares rely s param W f.event [f] own out
  /-- A hook refuses it, and what it gives back is unmarked and offered on. -/
  | onward {W : RegistrationId → Prop} {f : Rebuff} {fs : List Rebuff} {own own' : List (Store × Store)}
      {out : Handled} : W f.registration → f.Occurs s own → f.outcome = .ok () → f.left.handled = false →
      Fares rely s param (fun r => W r ∧ r ≠ f.registration) f.left fs own' out →
      Fares rely s param W f.event (f :: fs) (own ++ own') out

section

variable {rely : Store → Store → Prop} {s : Store} {param : String} {W W' : RegistrationId → Prop}
  {e e' : RequestEvent} {f : Rebuff} {fs fs' : List Rebuff} {own own' before after : List (Store × Store)}
  {out : Handled} {r : RegistrationId}

theorem Blank.noted_append (hb : Blank before) (ha : Blank after) : noted (before ++ own ++ after) = noted own := by
  rw [Container.noted_append, Container.noted_append, hb.1, ha.1, List.nil_append, List.append_nil]

theorem Blank.leases_append (hb : Blank before) (ha : Blank after) :
    Leases r (before ++ own ++ after) ↔ Leases r own := by
  simp [Container.leases_append, hb.2 r, ha.2 r]

theorem Rebuff.Occurs.surround (h : f.Occurs s own) (hb : Blank before) (ha : Blank after) :
    f.Occurs s (before ++ own ++ after) where
  hook := h.hook
  asks := (h.asks.append_left before).append_right after
  left := h.left
  noted := (hb.noted_append ha).trans h.noted
  leases r := fun hl => h.leases r ((hb.leases_append ha).1 hl)

theorem Rebuff.Occurs.idle (h : f.Occurs s own) : Idle own := ⟨by simp [h.noted, Act.isAnswer], h.leases⟩

/-- What is blank before and after it has nothing to do with how an event fares. -/
theorem Fares.surround (h : Fares rely s param W e fs own out) (hb : Blank before) (ha : Blank after) :
    Fares rely s param W e fs (before ++ own ++ after) out := by
  induction h generalizing before with
  | passed hown =>
    exact .passed ⟨(hb.noted_append ha).trans hown.1, fun r hl => hown.2 r ((hb.leases_append ha).1 hl)⟩
  | served hr hasks hno hserving hm =>
    refine .served hr (fun hres => ?_) (by rwa [hb.noted_append ha]) (hserving.append hb.idle ha.idle) hm
    obtain ⟨h, hh, ha⟩ := hasks hres
    exact ⟨h, hh, (ha.append_left before).append_right after⟩
  | refused hr hocc hout hend => exact .refused hr (hocc.surround hb ha) hout hend
  | onward hr hocc hok hm _ ih =>
    have hfirst := hocc.surround hb blank_nil
    rw [List.append_nil] at hfirst
    have hrest := ih blank_nil
    rw [List.nil_append] at hrest
    have hall := Fares.onward hr hfirst hok hm hrest
    simpa only [List.append_assoc] using hall

theorem Fares.mono (h : Fares rely s param W e fs own out) (hW : ∀ r, W r → W' r) :
    Fares rely s param W' e fs own out := by
  induction h generalizing W' with
  | passed hown => exact .passed hown
  | served hr hasks hno hserving hm => exact .served (hW _ hr) hasks hno hserving hm
  | refused hr hocc hout hend => exact .refused (hW _ hr) hocc hout hend
  | onward hr hocc hok hm _ ih =>
    exact .onward (hW _ hr) hocc hok hm (ih fun r hr => ⟨hW r hr.1, hr.2⟩)

/-- What has come back unmarked and without a fault fares on, among registrations it has not met. -/
theorem Fares.append (h : Fares rely s param W e fs own (e', .ok ())) (hm : e'.handled = false)
    (hdisj : ∀ r, W r → ¬ W' r) (h' : Fares rely s param W' e' fs' own' out) :
    Fares rely s param (fun r => W r ∨ W' r) e (fs ++ fs') (own ++ own') out := by
  generalize hres : ((e', .ok ()) : Handled) = res at h
  induction h with
  | passed hown =>
    obtain rfl : e' = _ := congrArg Prod.fst hres
    have hall := h'.surround hown blank_nil
    rw [List.append_nil] at hall
    exact hall.mono fun r hr => .inr hr
  | served _ _ _ _ hmarked =>
    rw [← hres, hm] at hmarked
    cases hmarked
  | refused _ _ hout hend =>
    rcases hend with ⟨-, -, hmarked⟩ | ⟨cause, -, hfault⟩
    · rw [← hout, ← hres, hm] at hmarked
      cases hmarked
    · rw [← hres] at hfault
      cases hfault
  | @onward W f fs own₁ own₂ _ hr hocc hok hm' _ ih =>
    rw [List.append_assoc]
    refine .onward (.inl hr) hocc hok hm' ((ih (fun r hr => hdisj r hr.1) hres).mono ?_)
    rintro r (hr' | hr')
    · exact ⟨.inl hr'.1, hr'.2⟩
    · exact ⟨.inr hr', fun he => hdisj _ hr (he ▸ hr')⟩

/-- A registration that the event is counted at serves it, as it was when its hook let it pass. -/
theorem Fares.serving (h : Fares rely s param W e fs own out) (hl : Leases r own) :
    W r ∧ ∃ e', Serving rely r e' own ∧ ((s.registration r).isRestricted param = true →
      ∃ h, (s.registration r).hook = some h ∧
        Asks (s.hooks.getD h default) h (s.registration r).name e' true own) := by
  induction h with
  | passed hown => exact absurd hl (hown.2 r)
  | served hr hasks _ hserving _ =>
    obtain rfl := (hserving.counted r).1 hl
    exact ⟨hr, _, hserving, hasks⟩
  | refused _ hocc _ _ => exact absurd hl (hocc.leases r)
  | @onward _ _ _ own₁ _ _ _ hocc _ _ _ ih =>
    obtain ⟨hr, e', hserving, hasks⟩ := ih ((leases_append.1 hl).resolve_left (hocc.leases r))
    refine ⟨hr.1, e', hserving.after hocc.idle, fun hres => ?_⟩
    obtain ⟨h, hh, ha⟩ := hasks hres
    exact ⟨h, hh, ha.append_left own₁⟩

end

/-! ## Through the tree -/

/-- The contexts below a domain. -/
def Store.IsContextOf (s : Store) (d c : ComponentId) : Prop :=
  ∃ service, s.IsServiceOf d service ∧ c ∈ s.childIds service

/-- No two services below a domain file the same registration. -/
structure Store.Apart (s : Store) (d : ComponentId) : Prop where
  servers : (s.childIds d).Pairwise fun a b => List.Disjoint (s.filedBelow 2 a) (s.filedBelow 2 b)
  services : ∀ server ∈ s.childIds d,
    (s.childIds server).Pairwise fun a b => List.Disjoint (s.filedBelow 1 a) (s.filedBelow 1 b)

/-- How a dispatch in a part of the tree fares that files the registrations of `W`; nobody comes past a
guard meanwhile. -/
def Passage (rely : Store → Store → Prop) (s : Store) (param : String) (W : RegistrationId → Prop)
    (e : RequestEvent) (own : List (Store × Store)) (out : Handled) (t : Store) : Prop :=
  (∃ fs, Fares rely s param W e fs own out) ∧ s.Guarded t

section

variable {rely : Store → Store → Prop} {s u : Store} {param : String} {W : RegistrationId → Prop}
  {c d : ComponentId} {e : RequestEvent} {own : List (Store × Store)}

theorem Passage.mono {W' : RegistrationId → Prop} {out : Handled} {t : Store}
    (h : Passage rely s param W e own out t) (hW : ∀ r, W r → W' r) : Passage rely s param W' e own out t :=
  ⟨h.1.imp fun _ hf => hf.mono hW, h.2⟩

end

end Switchboard.Container
