import Switchboard.Proofs.Frames
import Switchboard.Proofs.Sharing

/-!
# The ledger of a set of contexts

Some contexts between two operations. `Stocked cs s` says that the registrations on
their desks, current or replaced, are there, that slots are filled for these alone,
and that nobody holds an instance. The hook of a phase works on the desk of one of
them: `Tended` states what becomes of the desks, whatever classes and handlers make
fail. A stop and a destruction leave no slot filled for that desk.
-/

namespace Switchboard.Container

open Activity
open Lifecycle (Phase)

namespace Store

/-- The registration is among the handlers of a context or among those it replaced. -/
def OnDesk (s : Store) (d : ComponentId) (r : RegistrationId) : Prop :=
  ∃ desk, s.desk? d = some desk ∧ (r ∈ Directory.values desk.handlers ∨ r ∈ desk.retired)

/-- The registration is on the desk of one of the components. -/
def Shelved (s : Store) (cs : List ComponentId) (r : RegistrationId) : Prop := ∃ d ∈ cs, s.OnDesk d r

/-- The registrations on the desks are admitted, and they alone fill slots. -/
structure Stocked (cs : List ComponentId) (s : Store) : Prop where
  admitted : ∀ d ∈ cs, ∀ r, s.OnDesk d r → s.Admitted (s.Shelved cs) r
  ledger : s.Ledger (s.Shelved cs) []

variable {s t : Store} {d : ComponentId} {cs : List ComponentId} {r : RegistrationId}
  {P Q : RegistrationId → Prop}

theorem Admitted.mono (h : s.Admitted P r) (hPQ : P r → Q r) : s.Admitted Q r :=
  ⟨h.registered, hPQ h.accounted, h.policy⟩

/-! ## Desks -/

theorem Steady.desk? (h : Steady s t) (d : ComponentId) : t.desk? d = s.desk? d := by
  simp only [Store.desk?, component, h.components]

theorem Steady.onDesk (h : Steady s t) : t.OnDesk d r ↔ s.OnDesk d r := by
  simp only [OnDesk, h.desk?]

theorem untouched_updateDesk (s : Store) (d : ComponentId) (f : Desk → Desk) :
    Untouched s (s.updateDesk d f) := untouched_of_eq rfl rfl rfl rfl

theorem enrols_updateDesk (s : Store) (d : ComponentId) (f : Desk → Desk) :
    Enrols s (s.updateDesk d f) := ⟨rfl, fun _ hr => ⟨hr, rfl⟩⟩

theorem onDesk_iff {desk : Desk} (hd : s.desk? d = some desk) :
    s.OnDesk d r ↔ r ∈ Directory.values desk.handlers ∨ r ∈ desk.retired := by
  simp only [OnDesk, hd, Option.some.injEq, exists_eq_left']

theorem desk?_of_updateDesk {desk : Desk} (hd : s.desk? d = some desk) (f : Desk → Desk) :
    (s.updateDesk d f).desk? d = some (f desk) := by
  rw [desk?_updateDesk, if_pos rfl, hd, Option.map_some]

/-! ## Between operations -/

theorem Stocked.of_enrols (he : Enrols s t) (hadm : ∀ d ∈ cs, ∀ r, t.OnDesk d r → s.Admitted P r)
    (hl : t.Ledger Q []) (hQ : ∀ r, Q r → t.Shelved cs r) : t.Stocked cs :=
  ⟨fun d hd r hr => ((hadm d hd r hr).enrols he).mono fun _ => ⟨d, hd, hr⟩, hl.mono hQ⟩

theorem Stocked.steady (h : s.Stocked cs) (hs : s.Steady t) (hl : t.Ledger (s.Shelved cs) []) :
    t.Stocked cs := by
  refine .of_enrols hs.enrols (fun d hd r hr => h.admitted d hd r (hs.onDesk.1 hr)) hl ?_
  rintro r ⟨d, hd, hr⟩
  exact ⟨d, hd, hs.onDesk.2 hr⟩

theorem Stocked.beyond (h : s.Stocked cs) (hb : Beyond s t) : t.Stocked cs :=
  h.steady (.beyond hb) (h.ledger.congr (.beyond hb))

theorem Stocked.handlers (h : s.Stocked cs) (hd : d ∈ cs) : ∀ r ∈ s.handlers d, s.Admitted (s.Shelved cs) r := by
  intro r hr
  cases hdesk : s.desk? d with
  | none =>
    rw [Store.handlers, Directory.Walk.mem_order, hdesk] at hr
    cases hr
  | some desk => exact h.admitted d hd r ((onDesk_iff hdesk).2 (.inl ((mem_handlers hdesk).1 hr)))

end Store

/-! ## Phases -/

section

variable {s t u : Store} {c d : ComponentId} {cs : List ComponentId}

theorem height_of_desk {desk : Desk} (hd : s.desk? d = some desk) :
    (s.component d).kind.height = 0 := by
  have hd' : (s.component d).desk? = some desk := hd
  unfold Component.desk? at hd'
  split at hd'
  · rename_i k hk
    rw [hk]
    rfl
  · cases hd'

theorem desk?_updateDesk_other {f : Desk → Desk} {e : ComponentId} (h : e ≠ d) :
    (s.updateDesk d f).desk? e = s.desk? e := by
  rw [Store.desk?_updateDesk, if_neg fun hde => h hde.symm]

/-- What becomes of the desks in a phase of a context. A stop and a destruction leave the slots of the
other contexts filled alone. -/
structure Store.Tended (cs : List ComponentId) (s : Store) (d : ComponentId) (p : Phase) (t : Store) : Prop where
  stocked : t.Stocked cs
  desk : ∃ desk, t.desk? d = some desk
  shrunk : ∀ e r, t.OnDesk e r → s.OnDesk e r
  emptied : p = .stop ∨ p = .destroy → t.Ledger (fun r => ∃ e ∈ cs, e ≠ d ∧ s.OnDesk e r) []
  cleared : p = .destroy → ∀ r, ¬ t.OnDesk d r

/-- Registrations were taken off one desk, with the ledger to match. -/
theorem Store.Stocked.tended {p : Phase} {desk : Desk} (h : s.Stocked cs) (he : s.Enrols t)
    (hothers : ∀ e ≠ d, t.desk? e = s.desk? e) (hd : t.desk? d = some desk)
    (hsub : ∀ r, t.OnDesk d r → s.OnDesk d r)
    (hl : t.Ledger (fun r => ∃ e ∈ cs, e ≠ d ∧ s.OnDesk e r) [])
    (hclear : p = .destroy → ∀ r, ¬ t.OnDesk d r) : s.Tended cs d p t := by
  have hon : ∀ e ≠ d, ∀ r, t.OnDesk e r ↔ s.OnDesk e r := fun e hne r => by
    simp only [Store.OnDesk, hothers e hne]
  have hshrunk : ∀ e r, t.OnDesk e r → s.OnDesk e r := by
    intro e r hr
    by_cases hed : e = d
    · exact hed ▸ hsub r (hed ▸ hr)
    · exact (hon e hed r).1 hr
  refine ⟨.of_enrols he (fun e hm r hr => h.admitted e hm r (hshrunk e r hr)) hl ?_, ⟨desk, hd⟩, hshrunk,
    fun _ => hl, hclear⟩
  rintro r ⟨e, hm, hne, hr⟩
  exact ⟨e, hm, (hon e hne r).2 hr⟩

/-- Tearing down all that is on a desk, in whatever order, leaves the slots of the others filled. -/
theorem teardowns_stocked (d : ComponentId) (retired : List RegistrationId) (hl : u.Ledger (s.Shelved cs) []) :
    Ensures Beyond (teardownAll retired) (fun _ _ v => u.Steady v ∧
      ∀ handlers, (∀ r, s.OnDesk d r → r ∈ handlers ∨ r ∈ retired) →
        Ensures Beyond (teardownAll handlers) (fun _ _ t => u.Steady t ∧
          t.Ledger (fun r => ∃ e ∈ cs, e ≠ d ∧ s.OnDesk e r) []) v) u := by
  have hquiet : ∀ rs, Quiet Beyond (teardownAll rs) := guarantees_teardownAll quiet_teardown
  refine ((teardownAll_spec hl retired).and ((hquiet retired).steady u)).mono ?_
  rintro - - v ⟨hv, hsv⟩
  refine ⟨hsv, fun handlers hall => ((teardownAll_spec hv handlers).and ((hquiet handlers).steady v)).mono ?_⟩
  rintro - - t ⟨ht, hst⟩
  refine ⟨hsv.trans _ _ _ hst, ht.mono ?_⟩
  rintro r ⟨⟨⟨e, he, hr⟩, hnr⟩, hnh⟩
  refine ⟨e, he, ?_, hr⟩
  rintro rfl
  exact (hall r hr).elim hnh hnr

section

variable (h : s.Stocked cs) {desk : Desk} (hdesk : s.desk? d = some desk)
include h hdesk

/-- A stop tears down what was replaced and then what is registered. -/
theorem stop_tends : Ensures Beyond (contextHook d .stop) (fun _ _ t => s.Tended cs d .stop t) s := by
  simp only [contextHook, Store.takeRetired, ensures_bind, ensures_act, ensures_get, hdesk,
    Option.map_some, Option.getD_some]
  have hdu := Store.desk?_of_updateDesk hdesk fun d => { d with retired := [] }
  have hl := h.ledger.congr (s.untouched_updateDesk d fun d => { d with retired := [] })
  refine (teardowns_stocked d desk.retired hl).mono ?_
  rintro - - v ⟨hsv, hv⟩
  refine (hv (v.handlers d) fun r hr => ?_).mono ?_
  · rw [Store.mem_handlers ((hsv.desk? d).trans hdu)]
    exact (Store.onDesk_iff hdesk).1 hr
  rintro - - t ⟨hst, ht⟩
  refine ensures_pure.2 ?_
  have hothers : ∀ e ≠ d, t.desk? e = s.desk? e := fun e he =>
    (hst.desk? e).trans (desk?_updateDesk_other he)
  have hsub : ∀ r, t.OnDesk d r → s.OnDesk d r := fun r hr =>
    (Store.onDesk_iff hdesk).2 (((Store.onDesk_iff ((hst.desk? d).trans hdu)).1 hr).imp_right
      fun hm => absurd hm List.not_mem_nil)
  exact h.tended ((s.enrols_updateDesk d _).trans hst.enrols) hothers ((hst.desk? d).trans hdu) hsub ht
    (by simp)

/-- A destruction empties the desk first, and tears down what was on it. -/
theorem destroy_tends :
    Ensures Beyond (contextHook d .destroy) (fun _ _ t => s.Tended cs d .destroy t) s := by
  simp only [contextHook, Store.takeHandlers, Store.takeRetired, ensures_bind, ensures_act,
    ensures_modify, ensures_pure]
  have hdu := Store.desk?_of_updateDesk hdesk fun d => { d with handlers := [] }
  rw [hdu]
  simp only [Option.map_some, Option.getD_some]
  have hdv := Store.desk?_of_updateDesk hdu fun d => { d with retired := [] }
  have hl := (h.ledger.congr (s.untouched_updateDesk d fun d => { d with handlers := [] })).congr
    (Store.untouched_updateDesk _ d fun d => { d with retired := [] })
  refine (teardowns_stocked d desk.retired hl).mono ?_
  rintro - - v ⟨-, hv⟩
  refine (hv (s.handlers d) fun r hr => ?_).mono ?_
  · rw [Store.mem_handlers hdesk]
    exact (Store.onDesk_iff hdesk).1 hr
  rintro - - t ⟨hst, ht⟩
  have hdt := Store.desk?_of_updateDesk ((hst.desk? d).trans hdv) fun d =>
    { d with defaultHandler := none }
  have hempty : ∀ r, ¬ Store.OnDesk (t.updateDesk d fun d => { d with defaultHandler := none }) d r :=
    fun r hr => by simpa [Directory.values] using (Store.onDesk_iff hdt).1 hr
  refine h.tended (((s.enrols_updateDesk d _).trans (Store.enrols_updateDesk _ d _)).trans
    (hst.enrols.trans (t.enrols_updateDesk d _))) (fun e he => ?_) hdt (fun r hr => absurd hr (hempty r))
    (ht.congr (t.untouched_updateDesk d _)) fun _ => hempty
  rw [desk?_updateDesk_other he, hst.desk?, desk?_updateDesk_other he, desk?_updateDesk_other he]

theorem contextHook_tends (hd : d ∈ cs) (p : Phase) :
    Ensures Beyond (contextHook d p) (fun _ _ t => s.Tended cs d p t) s := by
  cases p with
  | init => exact ensures_pure.2 ⟨h, ⟨desk, hdesk⟩, fun _ _ h => h, by simp, by simp⟩
  | start =>
    simp only [contextHook, ensures_bind, ensures_get]
    refine (preloadAll_spec h.ledger (h.handlers hd)).mono ?_
    rintro - - t ⟨hs, hl⟩
    exact ⟨h.steady hs hl, ⟨desk, (hs.desk? d).trans hdesk⟩, fun _ _ => hs.onDesk.1, by simp, by simp⟩
  | stop => exact stop_tends h hdesk
  | destroy => exact destroy_tends h hdesk

end

end

end Switchboard.Container
