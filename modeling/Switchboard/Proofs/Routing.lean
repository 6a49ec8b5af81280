import Switchboard.Proofs.Acts

/-!
# Routing

Where an event goes. A service answers for an event when the first of its
contexts that accepts it can serve it; a domain handles an event exactly when one
of the services below it answers for it, so the order in which servers and
services are offered the event decides only which service it is. On the way an
event that is passed over leaves the store as it was, and one that is taken is
marked as handled before anything can fail or wait. Only a hook undoes that: it
refuses a marked event, and what it gives back in its place goes on as it is. If
that is unmarked (`Unmarks`) the event has not come to rest.
-/

namespace Switchboard.Container

open Activity

namespace Store

/-- A context that has not failed, is not on its way out, and whose tags fit the event. -/
def Accepting (s : Store) (c : ComponentId) (e : RequestEvent) : Prop :=
  s.state c ≠ .failed ∧ s.state c ≠ .destroying ∧ s.state c ≠ .destroyed ∧
    ∃ d, s.desk? c = some d ∧ d.request.isAssignableFrom e.request.typeTag = true ∧
      d.response.isAssignableFrom e.response.typeTag = true

/-- The first context of a service that accepts the event. -/
def IsAcceptor (s : Store) (service : ComponentId) (e : RequestEvent) (c : ComponentId) : Prop :=
  ∃ before after, s.childIds service = before ++ c :: after ∧ s.Accepting c e ∧
    ∀ b ∈ before, ¬ s.Accepting b e

/-- The event names a registration of the context, or the default does; it is there, not
unavailable, and unrestricted or with a hook. -/
def Servable (s : Store) (c : ComponentId) (e : RequestEvent) : Prop :=
  ∃ d name r, s.desk? c = some d ∧ e.handler.or d.defaultHandler = some name ∧
    d.handlers.find? name = some r ∧ (s.registration r).unavailable = false ∧
    ((s.registration r).isRestricted d.settings.restrictedParam = true →
      (s.registration r).hook.isSome = true)

/-- The service hands the event to a context that can serve it. -/
def AnswersFor (s : Store) (e : RequestEvent) (service : ComponentId) : Prop :=
  ∃ c, s.IsAcceptor service e c ∧ s.Servable c e

/-- The services below a domain. -/
def IsServiceOf (s : Store) (d service : ComponentId) : Prop :=
  ∃ server ∈ s.childIds d, service ∈ s.childIds server

/-- The same tree, with the servers of a domain and their services in another order. -/
structure Reordered (d : ComponentId) (s t : Store) : Prop where
  servers : (t.childIds d).Perm (s.childIds d)
  services : ∀ server ∈ s.childIds d, (t.childIds server).Perm (s.childIds server)
  contexts : ∀ service, s.IsServiceOf d service → t.childIds service = s.childIds service
  states : ∀ c, t.state c = s.state c
  desks : ∀ c, t.desk? c = s.desk? c
  registrations : ∀ r, t.registration r = s.registration r

theorem accepts_iff {s : Store} {c : ComponentId} {e : RequestEvent} :
    s.accepts c e = true ↔ s.Accepting c e := by
  unfold accepts Accepting
  rw [Bool.and_eq_true, Option.any_eq_true]
  simp only [Desk.fits, Bool.and_eq_true]
  cases s.state c <;> simp

theorem acceptor?_eq_some_iff {s : Store} {service c : ComponentId} {e : RequestEvent} :
    s.acceptor? service e = some c ↔ s.IsAcceptor service e c := by
  unfold acceptor? IsAcceptor
  rw [List.find?_eq_some_iff_append]
  simp only [accepts_iff, Bool.not_eq_true', ← Bool.not_eq_true]
  constructor
  · rintro ⟨hc, before, after, hs, hb⟩
    exact ⟨before, after, hs, hc, hb⟩
  · rintro ⟨before, after, hs, hc, hb⟩
    exact ⟨hc, before, after, hs, hb⟩

theorem acceptor?_eq_none_iff {s : Store} {service : ComponentId} {e : RequestEvent} :
    s.acceptor? service e = none ↔ ∀ c, ¬ s.IsAcceptor service e c := by
  constructor
  · intro h c hc
    rw [acceptor?_eq_some_iff.2 hc] at h
    cases h
  · intro h
    cases ha : s.acceptor? service e with
    | none => rfl
    | some c => exact absurd (acceptor?_eq_some_iff.1 ha) (h c)

/-- The first context of a service that accepts the event stands at a position of its list. -/
structure AcceptsAt (s : Store) (service : ComponentId) (e : RequestEvent) (n : Nat) (c : ComponentId) :
    Prop where
  stands : (s.childIds service)[n]? = some c
  accepting : s.Accepting c e
  first : ∀ m < n, ∀ b, (s.childIds service)[m]? = some b → ¬ s.Accepting b e

theorem isAcceptor_iff {s : Store} {service c : ComponentId} {e : RequestEvent} :
    s.IsAcceptor service e c ↔ ∃ n, s.AcceptsAt service e n c := by
  constructor
  · rintro ⟨before, after, hs, hc, hb⟩
    refine ⟨before.length, by rw [hs]; simp, hc, fun m hm b hmb => hb b ?_⟩
    rw [hs, List.getElem?_append_left hm] at hmb
    exact List.mem_of_getElem? hmb
  · rintro ⟨n, hn, hc, hf⟩
    obtain ⟨hlt, rfl⟩ := List.getElem?_eq_some_iff.1 hn
    refine ⟨(s.childIds service).take n, (s.childIds service).drop (n + 1), ?_, hc, fun b hb => ?_⟩
    · rw [← List.drop_eq_getElem_cons hlt, List.take_append_drop]
    · obtain ⟨m, hm⟩ := List.mem_iff_getElem?.1 hb
      rw [List.getElem?_take] at hm
      split at hm
      next hlt => exact hf m hlt b hm
      next => cases hm

/-! ## Reordering -/

section

variable {d : ComponentId} {s t : Store} {e : RequestEvent}

theorem Reordered.accepting (h : Reordered d s t) (c : ComponentId) :
    t.Accepting c e ↔ s.Accepting c e := by
  simp only [Accepting, h.states, h.desks]

theorem Reordered.servable (h : Reordered d s t) (c : ComponentId) :
    t.Servable c e ↔ s.Servable c e := by
  simp only [Servable, h.desks, h.registrations]

theorem Reordered.isServiceOf (h : Reordered d s t) (service : ComponentId) :
    t.IsServiceOf d service ↔ s.IsServiceOf d service := by
  constructor
  · rintro ⟨server, hs, hm⟩
    have hs' := h.servers.mem_iff.1 hs
    exact ⟨server, hs', (h.services server hs').mem_iff.1 hm⟩
  · rintro ⟨server, hs, hm⟩
    exact ⟨server, h.servers.mem_iff.2 hs, (h.services server hs).mem_iff.2 hm⟩

theorem Reordered.answersFor (h : Reordered d s t) {service : ComponentId}
    (hs : s.IsServiceOf d service) : t.AnswersFor e service ↔ s.AnswersFor e service := by
  simp only [AnswersFor, IsAcceptor, h.contexts service hs, h.accepting, h.servable]

end

end Store

/-! ## Running a handler -/

section

variable {rely : Store → Store → Prop}

theorem process_spec (i : InstanceId) (e : RequestEvent) (s : Store) :
    Ensures rely (process i e) (fun own out _ =>
      out.1.handled = e.handled ∧ processings own ≤ 1 ∧ questions own = 0) s := by
  simp only [process, ensures_bind, ensures_act]
  refine ((quiet_linger _).ensures _).mono fun own _ u hq => ?_
  -- The one call is noted before the handler gets to wait, and what came of it after.
  have hp := acts_perform u (s.classOfInstance i) i e.request e.response
  simp only [processings_append, questions_append, hq.1, hq.2]
  simp [processings, questions, notedBy, Store.note, hp, Act.isProcessing, Act.isQuestion]

theorem finish_event (r : RegistrationId) (i : InstanceId) (handler : String) (e : RequestEvent)
    (outcome : Except String Unit) (s : Store) :
    Ensures rely (finish r i handler e outcome) (fun _ out _ => out.1 = e) s := by
  cases outcome <;> simp [finish]

end

section

variable {rely : Store → Store → Prop}

/-- Whatever becomes of it, an event keeps its mark while it is run, and is run at most once. -/
theorem invoke_spec (r : RegistrationId) (e : RequestEvent) (s : Store) :
    Ensures rely (invoke r e) (fun own out _ =>
      out.1.handled = e.handled ∧ processings own ≤ 1 ∧ questions own = 0) s := by
  rw [invoke, ensures_bind]
  refine ((quiet_createHandler r).ensures s).mono fun own₁ got u h₁ => ?_
  cases got with
  | error f => simp [h₁.1, h₁.2]
  | ok i =>
    simp only [ensures_bind, ensures_get, List.nil_append]
    refine ((quiet_prepare r i _).ensures u).mono fun own₂ ready v h₂ => ?_
    cases ready with
    | error f =>
      have hg : Quiet rely (.modify (·.giveBack r i) : Work Unit) := guarantees_modify fun s => s.quietly_giveBack r i
      simp only [ensures_bind]
      refine (hg.ensures v).mono fun own₃ _ w h₃ => ?_
      simp [h₁.1, h₁.2, h₂.1, h₂.2, h₃.1, h₃.2]
    | ok =>
      simp only [ensures_bind]
      refine (process_spec i e v).mono fun own₃ ran w h₃ => ?_
      have hf : ∀ x, Ensures rely (finish r i (u.registration r).name ran.1 ran.2)
          (fun own out _ => out.1 = ran.1 ∧ IsQuiet own) x := fun x =>
        (finish_event r i _ ran.1 ran.2 x).and ((quiet_finish r i _ ran.1 ran.2).ensures x)
      split
      · refine ensures_bind.2 (((quiet_destroy i).ensures w).mono fun own₄ _ x h₄ => ?_)
        refine (hf x).mono fun own₅ out _ h₅ => ?_
        simp only [processings_append, questions_append, h₁.1, h₁.2, h₂.1, h₂.2, h₄.1, h₄.2,
          h₅.1, h₅.2.1, h₅.2.2]
        simpa using h₃
      · refine (hf w).mono fun own₅ out _ h₅ => ?_
        simp only [processings_append, questions_append, h₁.1, h₁.2, h₂.1, h₂.2, h₅.1, h₅.2.1,
          h₅.2.2]
        simpa using h₃

end

/-! ## Passing over and taking -/

/-- A hook refuses the event, which it is handed marked, and gives back one that is not. -/
def Unmarks (e : RequestEvent) (own : List (Store × Store)) : Prop :=
  ∃ h handler, ∃ asked ∈ own, ∃ refused ∈ own,
    asked.2 = asked.1.note (.asked h handler false) ∧ refused.2 = refused.1.note (.refused h handler) ∧
    ((refused.1.hooks.getD h default).refuse (asked.1.questions h) handler
      { e with handled := true }).1.handled = false

theorem Unmarks.mono {own own' : List (Store × Store)} {e : RequestEvent} (h : Unmarks e own)
    (hs : own ⊆ own') : Unmarks e own' := by
  obtain ⟨hook, handler, asked, ha, refused, hr, hwrites⟩ := h
  exact ⟨hook, handler, asked, hs ha, refused, hs hr, hwrites⟩

theorem Unmarks.questions_pos {own : List (Store × Store)} {e : RequestEvent} (h : Unmarks e own) :
    0 < questions own := by
  obtain ⟨hook, handler, asked, ha, -, -, hnote, -⟩ := h
  exact List.countP_pos_iff.2 ⟨.asked hook handler false, mem_noted_of_note ha hnote, rfl⟩

/-- The event is marked, after one call of a handler and one question to a hook at most. -/
def Taken (own : List (Store × Store)) (e : RequestEvent) : Prop :=
  e.handled = true ∧ processings own ≤ 1 ∧ questions own ≤ 1

theorem Taken.after {own own' : List (Store × Store)} {e : RequestEvent} (h : Taken own' e)
    (hq : IsQuiet own) : Taken (own ++ own') e := by
  refine ⟨h.1, ?_, ?_⟩
  · rw [processings_append, hq.1, Nat.zero_add]; exact h.2.1
  · rw [questions_append, hq.2, Nat.zero_add]; exact h.2.2

/-- What a part of the tree does with an event from `s`: if it answers for it, it takes it unless a
hook unmarks it; otherwise it leaves everything as it was. -/
def Decides (answers : Prop) (s : Store) (e : RequestEvent) (own : List (Store × Store))
    (out : Handled) (t : Store) : Prop :=
  (answers ∧ (Taken own out.1 ∨ Unmarks e own)) ∨ (¬ answers ∧ own = [] ∧ out = (e, .ok ()) ∧ t = s)

section

variable {rely : Store → Store → Prop}

theorem serve_taken (r : RegistrationId) (e : RequestEvent) (s : Store) :
    Ensures rely (serve r e) (fun own out _ =>
      out.1.handled = true ∧ processings own ≤ 1 ∧ questions own = 0) s :=
  (invoke_spec r { e with handled := true } s).mono fun _ _ _ h => h

/-- A refusal is one write. The event is what the hook gives back, and that is no permission. -/
theorem refuse_spec (h : HookId) (asked : Nat) (handler : String) (e : RequestEvent) (s : Store) :
    Ensures rely (refuse h asked handler e) (fun own out _ =>
      let left := (s.hooks.getD h default).refuse asked handler e
      own = [(s, s.note (.refused h handler))] ∧ out.1 = left.1 ∧
        (left.2 = .ok () ∧ out.2 = .ok false ∨
          ∃ cause, left.2 = .error cause ∧ out.2 = .error (.handler handler cause))) s := by
  simp only [refuse, ensures_bind, ensures_act, ensures_yield]
  intro u _
  cases hl : ((s.hooks.getD h default).refuse asked handler e).2 with
  | ok => exact ensures_pure.2 ⟨rfl, rfl, .inl ⟨rfl, rfl⟩⟩
  | error cause => exact ensures_pure.2 ⟨rfl, rfl, .inr ⟨cause, rfl, rfl⟩⟩

/-- Without a hook nothing happens. With one it is asked about the event, and either lets it pass as
it is, or is handed it marked and gives back what comes of it. -/
theorem consult_spec (g : Registration) (e : RequestEvent) (s : Store) :
    Ensures rely (consult g e) (fun own out t =>
      (g.hook = none ∧ own = [] ∧ out = (e, .ok false) ∧ t = s) ∨
      ∃ h, g.hook = some h ∧
        (((s.hooks.getD h default).admits (s.questions h) g.name e = true ∧
            own = [(s, s.note (.asked h g.name true))] ∧ out = (e, .ok true)) ∨
          ∃ u left, (s.hooks.getD h default).admits (s.questions h) g.name e = false ∧
            rely (s.note (.asked h g.name false)) u ∧
            (u.hooks.getD h default).refuse (s.questions h) g.name { e with handled := true } = left ∧
            own = [(s, s.note (.asked h g.name false)), (u, u.note (.refused h g.name))] ∧
            out.1 = left.1 ∧ (left.2 = .ok () ∧ out.2 = .ok false ∨
              ∃ cause, left.2 = .error cause ∧ out.2 = .error (.handler g.name cause)))) s := by
  unfold consult
  cases hg : g.hook with
  | none => simp
  | some h =>
    simp only [ensures_bind, ensures_act, ensures_yield]
    intro u hu
    cases ha : (s.hooks.getD h default).admits (s.questions h) g.name e with
    | true => exact ensures_pure.2 (.inr ⟨h, rfl, .inl ⟨ha, rfl, rfl⟩⟩)
    | false =>
      rw [ha] at hu
      refine (refuse_spec h _ g.name _ u).mono fun own out _ hr =>
        .inr ⟨h, rfl, .inr ⟨u, _, ha, hu, rfl, ?_, hr.2⟩⟩
      rw [hr.1]
      rfl

/-- What a consultation comes to: nothing, or one question, after which the event passes as it is, is
marked, or was unmarked by the hook. -/
theorem consult_settles (g : Registration) (e : RequestEvent) (s : Store) :
    Ensures rely (consult g e) (fun own out t =>
      (g.hook = none ∧ own = [] ∧ out = (e, .ok false) ∧ t = s) ∨
      (g.hook.isSome = true ∧ processings own = 0 ∧ questions own ≤ 1 ∧
        (out = (e, .ok true) ∨ (out.2 ≠ .ok true ∧ (out.1.handled = true ∨ Unmarks e own))))) s := by
  refine (consult_spec g e s).mono fun own out t hc => ?_
  have hasked : ∀ h b, notedBy (s, s.note (.asked h g.name b)) = [.asked h g.name b] := fun _ _ =>
    notedBy_eq rfl
  rcases hc with hnone | ⟨h, hh, ⟨-, rfl, rfl⟩ | ⟨u, left, -, -, rfl, rfl, hout, hleft⟩⟩
  · exact .inl hnone
  · refine .inr ⟨by rw [hh]; rfl, ?_, ?_, .inl rfl⟩ <;>
      simp [processings, questions, hasked, Act.isProcessing, Act.isQuestion]
  · have hnoted : noted [(s, s.note (.asked h g.name false)), (u, u.note (.refused h g.name))] =
        [.asked h g.name false, .refused h g.name] := by
      rw [noted_cons, hasked, noted_note]
      rfl
    refine .inr ⟨by rw [hh]; rfl, ?_, ?_, .inr ⟨?_, ?_⟩⟩
    · rw [processings, hnoted]
      rfl
    · rw [questions, hnoted]
      exact Nat.le_refl 1
    · rcases hleft with ⟨-, h₂⟩ | ⟨cause, -, h₂⟩ <;> simp [h₂]
    · cases hm : out.1.handled with
      | true => exact .inl rfl
      | false =>
        rw [hout] at hm
        exact .inr ⟨h, g.name, _, List.mem_cons_self, _, List.mem_cons_of_mem _ List.mem_cons_self,
          rfl, rfl, hm⟩

/-- Only the registration that the event resolves to decides what a context does with it. -/
theorem Store.servable_iff {s : Store} {c : ComponentId} {e : RequestEvent} {desk : Desk}
    {r : RegistrationId} (hd : s.desk? c = some desk) (hr : desk.resolve e = some r) :
    s.Servable c e ↔ (s.registration r).unavailable = false ∧
      ((s.registration r).isRestricted desk.settings.restrictedParam = true →
        (s.registration r).hook.isSome = true) := by
  obtain ⟨name, hn, hf⟩ := Option.bind_eq_some_iff.1 hr
  constructor
  · rintro ⟨d, name', r', hd', hn', hf', h⟩
    rw [hd, Option.some.injEq] at hd'
    subst hd'
    rw [hn, Option.some.injEq] at hn'
    subst hn'
    rw [hf, Option.some.injEq] at hf'
    subst hf'
    exact h
  · exact fun h => ⟨desk, name, r, hd, hn, hf, h⟩

theorem Store.not_servable_of_unresolved {s : Store} {c : ComponentId} {e : RequestEvent}
    {desk : Desk} (hd : s.desk? c = some desk) (hr : desk.resolve e = none) :
    ¬ s.Servable c e := by
  rintro ⟨d, name, r, hd', hn, hf, -⟩
  rw [hd, Option.some.injEq] at hd'
  subst hd'
  rw [Desk.resolve, hn, Option.bind_some, hf] at hr
  cases hr

theorem dispatchContext_decides (c : ComponentId) (e : RequestEvent) (s : Store) :
    Ensures rely (dispatchContext c e) (Decides (s.Servable c e) s e) s := by
  simp only [dispatchContext, ensures_bind, ensures_get, List.nil_append]
  cases hd : s.desk? c with
  | none => simp [Decides, Store.Servable, hd]
  | some desk =>
    dsimp only
    cases hr : desk.resolve e with
    | none => simp [Decides, Store.not_servable_of_unresolved hd hr]
    | some r =>
      dsimp only
      have hs := Store.servable_iff hd hr
      split
      · rename_i hu
        simp [Decides, hs, hu]
      rename_i hu
      rw [Bool.not_eq_true] at hu
      split
      · rename_i hr'
        refine ensures_bind.2 ((consult_settles _ e s).mono fun own out t h => ?_)
        rcases h with ⟨hk, rfl, rfl, rfl⟩ | ⟨hk, hp, hq, rfl | ⟨hne, hm⟩⟩
        · simp [Decides, hs, hk, hr']
        · refine (serve_taken r e t).mono fun own' out' t' h => .inl ⟨hs.2 ⟨hu, fun _ => hk⟩, .inl ?_⟩
          refine ⟨h.1, ?_, ?_⟩
          · rw [processings_append]; omega
          · rw [questions_append]; omega
        · obtain ⟨e', outcome⟩ := out
          have ht : ∀ out' : Handled, out'.1 = e' →
              Decides (s.Servable c e) s e (own ++ []) out' t := by
            rintro out' rfl
            rw [List.append_nil]
            exact .inl ⟨hs.2 ⟨hu, fun _ => hk⟩, hm.imp_left fun hm => ⟨hm, by omega, hq⟩⟩
          rcases outcome with f | _ | _
          · exact ensures_pure.2 (ht _ rfl)
          · exact ensures_pure.2 (ht _ rfl)
          · exact absurd rfl hne
      · rename_i hr'
        refine (serve_taken r e s).mono fun own out t h => .inl ⟨hs.2 ⟨hu, fun h' => absurd h' hr'⟩, .inl ?_⟩
        exact ⟨h.1, h.2.1, by rw [h.2.2]; omega⟩

end

/-! ## Through the tree -/

section

variable {rely : Store → Store → Prop}

/-- Offering an event to parts of the tree in turn. What is passed over leaves the store as it
was, so up to the one that answers every part is offered the event in the state the offer began in. -/
theorem offer_decides {dispatch : ComponentId → RequestEvent → Work Handled} {s : Store}
    {e : RequestEvent} (he : e.handled = false) {answers : ComponentId → Prop}
    {cs : List ComponentId}
    (h : ∀ c ∈ cs, Ensures rely (dispatch c e) (Decides (answers c) s e) s) :
    Ensures rely (offer dispatch cs e) (fun own out t =>
      ((∃ c ∈ cs, answers c) ∧ ((Taken own out.1 ∧ out.2 ≠ .ok false) ∨ Unmarks e own)) ∨
      ((∀ c ∈ cs, ¬ answers c) ∧ own = [] ∧ out = (e, .ok false) ∧ t = s)) s := by
  induction cs with
  | nil => simp [offer]
  | cons c cs ih =>
    refine ensures_bind.2 ((h c (by simp)).mono fun own out t hc => ?_)
    rcases hc with ⟨ha, ht | hun⟩ | ⟨hn, rfl, rfl, rfl⟩
    · obtain ⟨e', outcome⟩ := out
      cases outcome with
      | error f => exact ensures_pure.2 (.inl ⟨⟨c, by simp, ha⟩, .inl ⟨by simpa using ht, by simp⟩⟩)
      | ok =>
        dsimp only
        rw [if_pos ht.1]
        exact ensures_pure.2 (.inl ⟨⟨c, by simp, ha⟩, .inl ⟨by simpa using ht, by simp⟩⟩)
    · -- What an unmarked event comes to further on is another matter.
      exact .of_forall fun own' _ _ =>
        .inl ⟨⟨c, by simp, ha⟩, .inr (hun.mono (List.subset_append_left own own'))⟩
    · simp only [he, Bool.false_eq_true, ↓reduceIte, List.nil_append]
      refine (ih fun c' hc' => h c' (by simp [hc'])).mono fun own out t hr => ?_
      rcases hr with ⟨⟨c', hc', ha⟩, ht⟩ | ⟨hno, ht⟩
      · exact .inl ⟨⟨c', by simp [hc'], ha⟩, ht⟩
      · exact .inr ⟨by simpa [hn] using hno, ht⟩

/-- A service does with an event what the first of its contexts that accepts it does. -/
theorem runs_dispatchService {service c : ComponentId} {e : RequestEvent} {n : Nat} {s t : Store}
    {own : List (Store × Store)} {out : Handled} (h : s.AcceptsAt service e n c) :
    Runs rely (dispatchService service e) s own out t ↔ Runs rely (dispatchContext c e) s own out t := by
  have ha : s.acceptor? service e = some c :=
    Store.acceptor?_eq_some_iff.2 (Store.isAcceptor_iff.2 ⟨n, h⟩)
  rw [dispatchService, runs_get_bind, ha]

/-- Where none of its contexts accepts the event, a service does nothing. -/
theorem runs_dispatchService_of_none {service : ComponentId} {e : RequestEvent} {s t : Store}
    {own : List (Store × Store)} {out : Handled} (h : ∀ c ∈ s.childIds service, ¬ s.Accepting c e) :
    Runs rely (dispatchService service e) s own out t ↔ own = [] ∧ out = (e, .ok ()) ∧ t = s := by
  have ha : s.acceptor? service e = none := by
    refine Store.acceptor?_eq_none_iff.2 fun c => ?_
    rintro ⟨before, after, hs, hc, -⟩
    exact h c (by rw [hs]; simp) hc
  rw [dispatchService, runs_get_bind, ha]
  exact runs_pure

theorem dispatchService_decides (service : ComponentId) (e : RequestEvent) (s : Store) :
    Ensures rely (dispatchService service e) (Decides (s.AnswersFor e service) s e) s := by
  simp only [dispatchService, ensures_bind, ensures_get, List.nil_append]
  cases ha : s.acceptor? service e with
  | none =>
    have hno : ¬ s.AnswersFor e service := by
      rintro ⟨c, hc, -⟩
      exact Store.acceptor?_eq_none_iff.1 ha c hc
    simp [Decides, hno]
  | some c =>
    have hs : s.AnswersFor e service ↔ s.Servable c e := by
      constructor
      · rintro ⟨c', hc', h⟩
        rw [Store.acceptor?_eq_some_iff.2 hc', Option.some.injEq] at ha
        exact ha ▸ h
      · exact fun h => ⟨c, Store.acceptor?_eq_some_iff.1 ha, h⟩
    rw [hs]
    exact dispatchContext_decides c e s

theorem dispatchServer_decides {e : RequestEvent} (he : e.handled = false) (server : ComponentId)
    (s : Store) :
    Ensures rely (dispatchServer server e)
      (Decides (∃ service ∈ s.childIds server, s.AnswersFor e service) s e) s := by
  simp only [dispatchServer, ensures_bind, ensures_get, ensures_pure, List.nil_append,
    List.append_nil]
  refine (offer_decides he fun c _ => dispatchService_decides c e s).mono fun own out t h => ?_
  rcases h with ⟨ha, ht⟩ | ⟨hno, rfl, rfl, rfl⟩
  · exact .inl ⟨ha, ht.imp_left And.left⟩
  · exact .inr ⟨by simpa using hno, rfl, rfl, rfl⟩

theorem isQuiet_measure (s : Store) (m : Meter) : IsQuiet [(s, s.measure m)] :=
  isQuiet_of_notes (List.forall_mem_singleton.2 (Store.notes_of_acts_eq rfl))

/-- A domain counts the event whatever becomes of it, so its own writes are more than those of
the server that took it. -/
theorem dispatchDomain_spec {e : RequestEvent} (he : e.handled = false) (d : ComponentId)
    (s : Store) :
    Ensures rely (dispatchDomain d e) (fun own out _ =>
      ((∃ service, s.IsServiceOf d service ∧ s.AnswersFor e service) ∧
        (Taken own out.1 ∨ Unmarks e own)) ∨
      ((∀ service, s.IsServiceOf d service → ¬ s.AnswersFor e service) ∧ IsQuiet own ∧
        out = (e, .ok ()))) s := by
  simp only [dispatchDomain, ensures_bind, ensures_modify, ensures_get, List.nil_append]
  have h₀ := isQuiet_measure s (.dispatched (s.name d))
  refine (offer_decides he fun c _ => dispatchServer_decides he c _).mono fun own out t h => ?_
  rcases h with ⟨⟨server, hs, service, hv, ha⟩, ht⟩ | ⟨hno, rfl, rfl, rfl⟩
  · have hin : ∃ service, s.IsServiceOf d service ∧ s.AnswersFor e service :=
      ⟨service, ⟨server, hs, hv⟩, ha⟩
    rcases ht with ⟨ht, hne⟩ | hun
    · have hown := ht.after h₀
      obtain ⟨e', outcome⟩ := out
      rcases outcome with f | _ | _
      · exact ensures_pure.2 (.inl ⟨hin, .inl (by simpa using hown)⟩)
      · exact absurd rfl hne
      · exact ensures_pure.2 (.inl ⟨hin, .inl (by simpa using hown)⟩)
    · refine .of_forall fun own' _ _ => .inl ⟨hin, .inr (hun.mono fun w hw => ?_)⟩
      simp [hw]
  · simp only [ensures_bind, ensures_modify, ensures_pure]
    refine .inr ⟨?_, ?_, trivial⟩
    · rintro service ⟨server, hs, hv⟩ ha
      exact hno server hs ⟨service, hv, ha⟩
    · exact h₀.append (isQuiet_measure (s.measure (.dispatched (s.name d))) (.unhandled (s.name d)))

end

/-! ## One call at most -/

/-- A handler is called once at most, and not when the event comes back unmarked. -/
def CallsOnce (own : List (Store × Store)) (e : RequestEvent) : Prop :=
  processings own ≤ 1 ∧ (e.handled = false → processings own = 0)

section

variable {rely : Store → Store → Prop} {own own' : List (Store × Store)} {e : RequestEvent}

theorem callsOnce_of_none (h : processings own = 0) : CallsOnce own e := ⟨by omega, fun _ => h⟩

theorem CallsOnce.after (h : CallsOnce own' e) (hown : processings own = 0) : CallsOnce (own ++ own') e := by
  refine ⟨?_, fun hm => ?_⟩
  · rw [processings_append, hown, Nat.zero_add]; exact h.1
  · rw [processings_append, hown, h.2 hm]

theorem CallsOnce.before (h : CallsOnce own e) (hown : processings own' = 0) : CallsOnce (own ++ own') e := by
  refine ⟨?_, fun hm => ?_⟩
  · rw [processings_append, hown, Nat.add_zero]; exact h.1
  · rw [processings_append, hown, h.2 hm]

theorem serve_callsOnce (r : RegistrationId) (e : RequestEvent) (s : Store) :
    Ensures rely (serve r e) (fun own out _ => CallsOnce own out.1) s :=
  (serve_taken r e s).mono fun _ _ _ h => ⟨h.2.1, fun hm => by rw [h.1] at hm; cases hm⟩

theorem dispatchContext_callsOnce (c : ComponentId) (e : RequestEvent) (s : Store) :
    Ensures rely (dispatchContext c e) (fun own out _ => CallsOnce own out.1) s := by
  simp only [dispatchContext, ensures_bind, ensures_get, List.nil_append]
  split
  · exact ensures_pure.2 (callsOnce_of_none rfl)
  split
  · exact ensures_pure.2 (callsOnce_of_none rfl)
  split
  · exact ensures_pure.2 (callsOnce_of_none rfl)
  split
  · refine ensures_bind.2 ((consult_settles _ e s).mono fun own out t h => ?_)
    have hown : processings own = 0 := by
      rcases h with ⟨-, rfl, -⟩ | ⟨-, hp, -⟩
      · rfl
      · exact hp
    split
    · exact ensures_pure.2 (callsOnce_of_none (by simpa using hown))
    · exact ensures_pure.2 (callsOnce_of_none (by simpa using hown))
    · exact (serve_callsOnce _ _ t).mono fun _ _ _ h => h.after hown
  · exact serve_callsOnce _ e s

theorem offer_callsOnce {dispatch : ComponentId → RequestEvent → Work Handled}
    (h : ∀ c e s, Ensures rely (dispatch c e) (fun own out _ => CallsOnce own out.1) s)
    (cs : List ComponentId) (e : RequestEvent) (s : Store) :
    Ensures rely (offer dispatch cs e) (fun own out _ => CallsOnce own out.1) s := by
  induction cs generalizing e s with
  | nil => exact ensures_pure.2 (callsOnce_of_none rfl)
  | cons c cs ih =>
    refine ensures_bind.2 ((h c e s).mono fun own out t hc => ?_)
    split
    · exact ensures_pure.2 (by simpa using hc)
    · split
      · exact ensures_pure.2 (by simpa using hc)
      · rename_i hm
        exact (ih _ t).mono fun _ _ _ h => h.after (hc.2 (Bool.not_eq_true _ ▸ hm))

theorem dispatchService_callsOnce (service : ComponentId) (e : RequestEvent) (s : Store) :
    Ensures rely (dispatchService service e) (fun own out _ => CallsOnce own out.1) s := by
  simp only [dispatchService, ensures_bind, ensures_get, List.nil_append]
  split
  · exact dispatchContext_callsOnce _ e s
  · exact ensures_pure.2 (callsOnce_of_none rfl)

theorem dispatchServer_callsOnce (server : ComponentId) (e : RequestEvent) (s : Store) :
    Ensures rely (dispatchServer server e) (fun own out _ => CallsOnce own out.1) s := by
  simp only [dispatchServer, ensures_bind, ensures_get, ensures_pure, List.nil_append, List.append_nil]
  exact offer_callsOnce dispatchService_callsOnce _ e s

theorem dispatchDomain_callsOnce (d : ComponentId) (e : RequestEvent) (s : Store) :
    Ensures rely (dispatchDomain d e) (fun own out _ => CallsOnce own out.1) s := by
  simp only [dispatchDomain, ensures_bind, ensures_modify, ensures_get, List.nil_append]
  refine (offer_callsOnce dispatchServer_callsOnce _ e _).mono fun own out t h => ?_
  have hown := h.after (isQuiet_measure s (.dispatched (s.name d))).1
  split
  · exact ensures_pure.2 (by simpa using hown)
  · exact ensures_pure.2 (by simpa using hown)
  · simp only [ensures_bind, ensures_modify, ensures_pure]
    simpa using hown.before (isQuiet_measure t (.unhandled (t.name d))).1

end

/-- Where an event goes. Whatever others do while it waits, a dispatch at a domain calls at most one
handler. Unless a hook that refuses the event gives back an unmarked one in its place, it asks at most
one hook; it fails only with the event marked; and the event comes back marked exactly when some
service below the domain answers for it, in whichever order servers and services are gone through. And
such a hook is met only where a service answers. -/
theorem dispatchDomain_routes {d : ComponentId} {e e' : RequestEvent} {s t : Store}
    {own : List (Store × Store)} {outcome : Except Fault Unit} (he : e.handled = false)
    (h : Runs anything (dispatchDomain d e) s own (e', outcome) t) :
    processings own ≤ 1 ∧
    (Unmarks e own → ∃ service, s.IsServiceOf d service ∧ s.AnswersFor e service) ∧
    (¬ Unmarks e own →
      questions own ≤ 1 ∧
      (∀ f, outcome = .error f → e'.handled = true) ∧
      (e'.handled = true ↔ ∃ service, s.IsServiceOf d service ∧ s.AnswersFor e service) ∧
      ∀ s₂, s.Reordered d s₂ → ∀ own₂ e₂ outcome₂ t₂,
        Runs anything (dispatchDomain d e) s₂ own₂ (e₂, outcome₂) t₂ → ¬ Unmarks e own₂ →
        e₂.handled = e'.handled) := by
  have marked : ∀ {u own e'' out v}, Runs anything (dispatchDomain d e) u own (e'', out) v →
      ¬ Unmarks e own →
      (e''.handled = true ↔ ∃ service, u.IsServiceOf d service ∧ u.AnswersFor e service) := by
    intro u own e'' out v hr hno
    rcases dispatchDomain_spec he d u _ _ _ hr with ⟨ha, ht | hun⟩ | ⟨hno, -, ho⟩
    · exact iff_of_true ht.1 ha
    · exact absurd hun hno
    · obtain ⟨rfl, -⟩ := Prod.mk.injEq .. ▸ ho
      refine iff_of_false (by simp [he]) ?_
      rintro ⟨service, hs, ha⟩
      exact hno service hs ha
  have hspec := dispatchDomain_spec he d s _ _ _ h
  refine ⟨(dispatchDomain_callsOnce d e s _ _ _ h).1, fun hun => ?_, fun hun => ⟨?_, ?_, marked h hun, ?_⟩⟩
  · rcases hspec with ⟨ha, -⟩ | ⟨-, hq, -⟩
    · exact ha
    · exact absurd hq.2 (Nat.ne_of_gt hun.questions_pos)
  · rcases hspec with ⟨-, ht | hun'⟩ | ⟨-, hq, -⟩
    · exact ht.2.2
    · exact absurd hun' hun
    · rw [hq.2]; omega
  · rintro f rfl
    rcases hspec with ⟨-, ht | hun'⟩ | ⟨-, -, ho⟩
    · exact ht.1
    · exact absurd hun' hun
    · cases ho
  · intro s₂ hs₂ own₂ e₂ outcome₂ t₂ h₂ hun₂
    rw [Bool.eq_iff_iff, marked h₂ hun₂, marked h hun]
    refine exists_congr fun service => ?_
    rw [hs₂.isServiceOf service]
    exact and_congr_right fun hs => hs₂.answersFor hs

/-- A domain with two services, whose contexts send every event to handlers behind the same hook. -/
def sampleTree (hook : CapabilityHook) : Store where
  board := { managers :=
    ["domain", "server", "first", "front", "second", "back"].map fun n => { name := n, state := .started } }
  components := ⟨[
    { kind := .domain {}, children := [("server", 1)] },
    { kind := .server, children := [("first", 2), ("second", 4)] },
    { kind := .service, children := [("front", 3)] },
    { kind := .context
        { request := .any, response := .any, handlers := [("vault", 0)], defaultHandler := some "vault" } },
    { kind := .service, children := [("back", 5)] },
    { kind := .context
        { request := .any, response := .any, handlers := [("safe", 1)], defaultHandler := some "safe" } }]⟩
  registrations := ⟨["vault", "safe"].map fun name => {
    name, cls := 0, instancing := .stateful, hook := some 0, params := Params.empty.insert "restricted" "true" }⟩
  classes := ⟨[.idle]⟩
  hooks := ⟨[hook]⟩

def sampleEvent : RequestEvent where
  request := .text "hi"
  response := .reply ""

theorem dispatchDomain_routes_sample :
    sampleEvent.handled = false ∧ ∃ own e' outcome t,
      Runs anything (dispatchDomain 0 sampleEvent) (sampleTree .denyAll) own (e', outcome) t ∧
      processings own ≤ 1 ∧ ¬ Unmarks sampleEvent own ∧ questions own ≤ 1 ∧ e'.handled = true ∧
      ∃ service, (sampleTree .denyAll).IsServiceOf 0 service ∧
        (sampleTree .denyAll).AnswersFor sampleEvent service := by
  obtain ⟨e', outcome, t, hm, hrun, hhooks⟩ : ∃ e' outcome t, e'.handled = true ∧
      (dispatchDomain 0 sampleEvent).run (sampleTree .denyAll) = .finished (e', outcome) t ∧
      ((dispatchDomain 0 sampleEvent).writes (sampleTree .denyAll)).map (·.1.hooks) =
        List.replicate 3 ⟨[.denyAll]⟩ :=
    ⟨_, _, _, rfl, rfl, rfl⟩
  have h : Runs anything _ _ _ _ _ := Runs.of_run_writes (fun _ => trivial) hrun
  -- The only hook leaves the event as it is handed it.
  have hun : ¬ Unmarks sampleEvent ((dispatchDomain 0 sampleEvent).writes (sampleTree .denyAll)) := by
    rintro ⟨hook, handler, asked, -, refused, hr, -, -, hleft⟩
    have hk : refused.1.hooks ∈ List.replicate 3 ⟨[CapabilityHook.denyAll]⟩ := hhooks ▸ List.mem_map_of_mem hr
    rw [List.eq_of_mem_replicate hk] at hleft
    cases hook <;> cases hleft
  obtain ⟨hp, -, hroutes⟩ := dispatchDomain_routes rfl h
  obtain ⟨hq, -, hiff, -⟩ := hroutes hun
  exact ⟨rfl, _, e', outcome, t, h, hp, hun, hq, hm, hiff.1 hm⟩

/-- Refuses every event and gives back a new one in its place, the first time without a fault. -/
def redirectingHook : CapabilityHook where
  admits _ _ _ := false
  refuse n _ e := ({ request := e.request, response := e.response },
    if n = 0 then .ok () else .error "nowhere to go")

/-- One dispatch can ask two hooks, and fail with the event unmarked though a service answers for it. -/
theorem redirectingHook_unmarks :
    sampleEvent.handled = false ∧ ∃ own e' f t,
      Runs anything (dispatchDomain 0 sampleEvent) (sampleTree redirectingHook) own (e', .error f) t ∧
      questions own = 2 ∧ e'.handled = false ∧
      (sampleTree redirectingHook).IsServiceOf 0 2 ∧
      (sampleTree redirectingHook).AnswersFor sampleEvent 2 := by
  obtain ⟨e', f, t, hrun, hm, hq⟩ : ∃ e' f t,
      (dispatchDomain 0 sampleEvent).run (sampleTree redirectingHook) = .finished (e', .error f) t ∧
      e'.handled = false ∧
      questions ((dispatchDomain 0 sampleEvent).writes (sampleTree redirectingHook)) = 2 :=
    ⟨_, _, _, rfl, rfl, by decide⟩
  refine ⟨rfl, _, e', f, t, Runs.of_run_writes (fun _ => trivial) hrun, hq, hm,
    ⟨1, List.mem_cons_self, List.mem_cons_self⟩, 3, Store.acceptor?_eq_some_iff.1 rfl, ?_⟩
  exact ⟨_, "vault", 0, rfl, rfl, rfl, rfl, fun _ => rfl⟩

end Switchboard.Container
