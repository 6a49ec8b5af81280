import Switchboard.Proofs.Acts

/-!
# The ledger of shared instances

Who answers for the instances of stateless classes. Everything that matters of an
instance is a number: the slots it sits in, the hands that hold it, its holders,
and how often it was initialized, failed, processed and destroyed. `Balanced`
relates these numbers, and `Ledger P hands s` says that they are balanced for
every shared instance, with `hands` for what those at work hold at the moment and
slots filled only where `P` holds. Each write that touches a shared instance
moves one entry of the ledger; the other writes leave it untouched.
-/

namespace Switchboard.Container

/-- What an instance can have behind it. -/
inductive Mark where
  | initialized | failed | processed | destroyed
  deriving DecidableEq

/-- The mark an act leaves on an instance: an `init` that ended, a `process` or `destroy` that began. -/
def Act.mark? : Act → Option (InstanceId × Mark)
  | initialized _ i (.ok ()) => some (i, .initialized)
  | initialized _ i (.error _) => some (i, .failed)
  | processing _ i => some (i, .processed)
  | destroying _ i => some (i, .destroyed)
  | _ => none

/-- Somebody at work who holds a shared instance. -/
inductive Hand where
  /-- Built it and has not initialized it. -/
  | raw (i : InstanceId)
  /-- Answers for an initialized instance that is in no slot. -/
  | sole (i : InstanceId)
  /-- Serves a request with it. -/
  | lent (i : InstanceId)
  /-- Has only to let go of it. -/
  | spent (i : InstanceId)
  deriving DecidableEq

def Hand.instance : Hand → InstanceId
  | raw i | sole i | lent i | spent i => i

namespace Store

/-- How often an instance was marked. -/
def marks (s : Store) (i : InstanceId) (m : Mark) : Nat :=
  s.acts.countP fun a => a.mark? = some (i, m)

/-- The number of registrations with the instance in their slot. -/
def slots (s : Store) (i : InstanceId) : Nat :=
  s.registrations.items.countP fun g => g.shared = some i

/-- The instance is of a class whose instances are shared. -/
def IsStateless (s : Store) (i : InstanceId) : Prop :=
  ∃ t, s.instance? i = some t ∧ (s.classOf t.cls).instancing.sharesInstance = true

/-- The instance is there and serves one request only. -/
def IsOwn (s : Store) (i : InstanceId) : Prop := s.instance? i ≠ none ∧ ¬ s.IsStateless i

/-- The numbers of one instance. An initialized instance is in a slot, in the sole hand that
answers for it, or destroyed, and only one of these once. -/
structure Balanced (s : Store) (hands : List Hand) (i : InstanceId) : Prop where
  owners : s.slots i + hands.count (.sole i) + s.marks i .destroyed = s.marks i .initialized
  outcome : s.marks i .initialized + s.marks i .failed + hands.count (.raw i) ≤ 1
  holders : s.holders i = s.slots i + hands.count (.raw i) + hands.count (.sole i) +
    hands.count (.lent i) + hands.count (.spent i)
  lent : hands.count (.lent i) = 0 ∨ s.slots i + hands.count (.sole i) = 1
  spent : hands.count (.spent i) ≤ s.marks i .destroyed + s.marks i .failed
  processed : s.marks i .processed = 0 ∨ s.marks i .initialized = 1

structure Ledger (P : RegistrationId → Prop) (hands : List Hand) (s : Store) : Prop where
  balanced : ∀ i, s.IsStateless i → s.Balanced hands i
  shared : ∀ r i, (s.registration r).shared = some i → P r ∧ s.IsStateless i
  held : ∀ h ∈ hands, s.IsStateless h.instance
  unknown : ∀ i m, s.instance? i = none → s.marks i m = 0

/-- The ledger of `s` stands in `t` as well. -/
structure Untouched (s t : Store) : Prop where
  stateless : ∀ i, t.IsStateless i ↔ s.IsStateless i
  marks : ∀ i m, t.instance? i = none ∨ t.IsStateless i → t.marks i m = s.marks i m
  unknown : ∀ i, t.instance? i = none → s.instance? i = none
  shared : ∀ r, (t.registration r).shared = (s.registration r).shared
  slots : ∀ i, t.slots i = s.slots i
  holders : ∀ i, s.IsStateless i → t.holders i = s.holders i

variable {s t u : Store} {P Q : RegistrationId → Prop} {hands hands' : List Hand}
  {r : RegistrationId} {i j : InstanceId} {m : Mark}

/-! ## Slots -/

theorem get?_registration (h : (s.registration r).shared = some i) :
    s.registrations.items[r]? = some (s.registration r) := by
  unfold registration Roster.getD Roster.get? at *
  cases hg : s.registrations.items[r]? with
  | none => rw [hg] at h; cases h
  | some g => rfl

theorem slots_pos (h : (s.registration r).shared = some i) : 0 < s.slots i :=
  List.countP_pos_iff.2 ⟨_, List.mem_of_getElem? (get?_registration h), by simpa using h⟩

theorem exists_of_slots_pos (h : 0 < s.slots i) : ∃ r, (s.registration r).shared = some i := by
  obtain ⟨g, hg, hs⟩ := List.countP_pos_iff.1 h
  obtain ⟨r, hr⟩ := List.getElem?_of_mem hg
  refine ⟨r, ?_⟩
  simp only [registration, Roster.getD, Roster.get?, hr, Option.getD_some]
  simpa using hs

theorem slots_eq_zero (h : ∀ r, (s.registration r).shared ≠ some i) : s.slots i = 0 := by
  refine Nat.eq_zero_of_not_pos fun hpos => ?_
  obtain ⟨r, hr⟩ := exists_of_slots_pos hpos
  exact h r hr

/-- Changing one item of a list changes a count by that item. -/
theorem countP_modify {α : Type} (p : α → Bool) (f : α → α) (l : List α) {n : Nat} {a : α}
    (h : l[n]? = some a) :
    (l.modify n f).countP p + (if p a then 1 else 0) = l.countP p + if p (f a) then 1 else 0 := by
  induction l generalizing n with
  | nil => simp at h
  | cons b l ih =>
    cases n with
    | zero =>
      simp only [List.getElem?_cons_zero, Option.some.injEq] at h
      subst h
      simp only [List.modify_zero_cons, List.countP_cons]
      omega
    | succ n =>
      simp only [List.getElem?_cons_succ] at h
      have := ih h
      simp only [List.modify_succ_cons, List.countP_cons]
      omega

theorem slots_updateRegistration {f : Registration → Registration} (hr : r < s.registrations.size)
    (j : InstanceId) :
    (s.updateRegistration r f).slots j + (if (s.registration r).shared = some j then 1 else 0) =
      s.slots j + if (f (s.registration r)).shared = some j then 1 else 0 := by
  have hg : s.registrations.items[r]? = some (s.registration r) := by
    rw [registration, Roster.getD, Roster.get?, List.getElem?_eq_getElem hr, Option.getD_some]
  have hc := countP_modify (fun g => decide (g.shared = some j)) f _ hg
  simpa [slots, updateRegistration, Roster.update] using hc

/-! ## Writes that leave the ledger untouched -/

theorem Untouched.refl (s : Store) : Untouched s s where
  stateless _ := .rfl
  marks _ _ _ := rfl
  unknown _ h := h
  shared _ := rfl
  slots _ := rfl
  holders _ _ := rfl

theorem Untouched.trans (h : Untouched s t) (k : Untouched t u) : Untouched s u where
  stateless i := (k.stateless i).trans (h.stateless i)
  marks i m hi := by
    rw [k.marks i m hi, h.marks i m]
    exact hi.imp (k.unknown i) (k.stateless i).1
  unknown i hi := h.unknown i (k.unknown i hi)
  shared r := (k.shared r).trans (h.shared r)
  slots i := (k.slots i).trans (h.slots i)
  holders i hi := (k.holders i ((h.stateless i).2 hi)).trans (h.holders i hi)

theorem IsOwn.congr (h : s.IsOwn i) (hu : Untouched s t) : t.IsOwn i :=
  ⟨fun hn => h.1 (hu.unknown i hn), fun hs => h.2 ((hu.stateless i).1 hs)⟩

theorem Balanced.congr (h : s.Balanced hands i) (hu : Untouched s t) (hi : s.IsStateless i) :
    t.Balanced hands i := by
  have hm := fun m => hu.marks i m (.inr ((hu.stateless i).2 hi))
  have hs := hu.slots i
  have hh := hu.holders i hi
  constructor
  · rw [hs, hm, hm]; exact h.owners
  · rw [hm, hm]; exact h.outcome
  · rw [hs, hh]; exact h.holders
  · rw [hs]; exact h.lent
  · rw [hm, hm]; exact h.spent
  · rw [hm, hm]; exact h.processed

theorem Ledger.congr (h : s.Ledger P hands) (hu : Untouched s t) : t.Ledger P hands where
  balanced i hi := (h.balanced i ((hu.stateless i).1 hi)).congr hu ((hu.stateless i).1 hi)
  shared r i hr := by
    have := h.shared r i (hu.shared r ▸ hr)
    exact ⟨this.1, (hu.stateless i).2 this.2⟩
  held k hk := (hu.stateless _).2 (h.held k hk)
  unknown i m hi := by
    rw [hu.marks i m (.inl hi)]
    exact h.unknown i m (hu.unknown i hi)

theorem Ledger.mono (h : s.Ledger P hands) (hPQ : ∀ r, P r → Q r) : s.Ledger Q hands :=
  { h with shared := fun r i hr => ⟨hPQ r (h.shared r i hr).1, (h.shared r i hr).2⟩ }

theorem Ledger.perm (h : s.Ledger P hands) (hp : hands.Perm hands') : s.Ledger P hands' where
  balanced i hi := by
    obtain ⟨ho, hf, hh, hl, hs, hq⟩ := h.balanced i hi
    simp only [hp.count_eq] at ho hf hh hl hs
    exact ⟨ho, hf, hh, hl, hs, hq⟩
  shared := h.shared
  held k hk := h.held k (hp.mem_iff.2 hk)
  unknown := h.unknown

/-- A write to other parts of the store. -/
theorem untouched_of_eq (ha : t.acts = s.acts) (hi : t.instances = s.instances)
    (hc : t.classes = s.classes) (hr : t.registrations = s.registrations) : Untouched s t where
  stateless i := by simp only [IsStateless, instance?, classOf, hi, hc]
  marks i m _ := by simp only [marks, ha]
  unknown i h := by simpa only [instance?, hi] using h
  shared r := by simp only [registration, hr]
  slots i := by simp only [slots, hr]
  holders i _ := by simp only [holders, instance?, hi]

theorem untouched_updateRegistration {f : Registration → Registration}
    (hf : (f (s.registration r)).shared = (s.registration r).shared) :
    Untouched s (s.updateRegistration r f) where
  stateless _ := .rfl
  marks _ _ _ := rfl
  unknown _ h := h
  shared r' := by
    rw [registration_updateRegistration]
    split
    · rename_i h
      exact h.1 ▸ hf
    · rfl
  slots i := by
    by_cases hr : r < s.registrations.size
    · have := slots_updateRegistration (f := f) hr i
      rw [hf] at this
      exact Nat.add_right_cancel this
    · have hn : s.registrations.update r f = s.registrations := by
        unfold Roster.update
        rw [List.modify_eq_self (by simpa [Roster.size] using hr)]
      simp only [slots, updateRegistration, hn]
  holders _ _ := rfl

theorem untouched_note {a : Act} (ha : a.mark? = none) (s : Store) : Untouched s (s.note a) where
  stateless _ := .rfl
  marks i m _ := by simp [marks, note, ha]
  unknown _ h := h
  shared _ := rfl
  slots _ := rfl
  holders _ _ := rfl

/-- What is noted of an instance that is not shared does not matter. -/
theorem untouched_note_own {a : Act} (hi : s.IsOwn i) (ha : a.mark? = some (i, m)) :
    Untouched s (s.note a) where
  stateless _ := .rfl
  marks j m' hj := by
    have hne : i ≠ j := by
      rintro rfl
      exact hj.elim hi.1 hi.2
    simp [marks, note, ha, hne]
  unknown _ h := h
  shared _ := rfl
  slots _ := rfl
  holders _ _ := rfl

/-! ## Instances -/

theorem instance?_updateInstance {f : Instance → Instance} (j : InstanceId) :
    (s.updateInstance i f).instance? j =
      if i = j then (s.instance? j).map f else s.instance? j :=
  Roster.get?_update ..

theorem isStateless_updateInstance {f : Instance → Instance} (hf : ∀ t, (f t).cls = t.cls)
    (j : InstanceId) : (s.updateInstance i f).IsStateless j ↔ s.IsStateless j := by
  unfold IsStateless
  rw [instance?_updateInstance]
  by_cases h : i = j
  · cases hj : s.instance? j <;> simp [h, hf, classOf, updateInstance]
  · simp [h, classOf, updateInstance]

theorem instance?_ne_none (h : s.IsStateless i) : s.instance? i ≠ none := by
  obtain ⟨t, ht, -⟩ := h
  simp [ht]

theorem holders_hold (hi : s.instance? i ≠ none) (j : InstanceId) :
    (s.hold i).holders j = s.holders j + if i = j then 1 else 0 := by
  unfold holders hold
  rw [instance?_updateInstance]
  by_cases h : i = j
  · subst h
    obtain ⟨t, ht⟩ := Option.ne_none_iff_exists'.1 hi
    simp [ht]
  · simp [h]

theorem holders_drop (s : Store) (i j : InstanceId) :
    (s.drop i).holders j = s.holders j - if i = j then 1 else 0 := by
  unfold holders drop
  rw [instance?_updateInstance]
  by_cases h : i = j
  · cases hj : s.instance? j <;> simp [h]
  · simp [h]

/-- A change to what an instance was initialized with. -/
theorem untouched_updateInstance {f : Instance → Instance} (hc : ∀ t, (f t).cls = t.cls)
    (hh : ∀ t, (f t).holders = t.holders) (s : Store) (i : InstanceId) :
    Untouched s (s.updateInstance i f) where
  stateless := isStateless_updateInstance hc
  marks _ _ _ := rfl
  unknown j h := by
    rw [instance?_updateInstance] at h
    split at h
    · simpa using h
    · exact h
  shared _ := rfl
  slots _ := rfl
  holders j _ := by
    unfold holders
    rw [instance?_updateInstance]
    split
    · cases s.instance? j <;> simp [hh]
    · rfl

/-- An instance that is not shared is let go of. -/
theorem untouched_drop (hi : s.IsOwn i) : Untouched s (s.drop i) where
  stateless := isStateless_updateInstance fun _ => rfl
  marks _ _ _ := rfl
  unknown j h := by
    rw [drop, instance?_updateInstance] at h
    split at h
    · simpa using h
    · exact h
  shared _ := rfl
  slots _ := rfl
  holders j hj := by
    have hne : i ≠ j := by
      rintro rfl
      exact hi.2 hj
    simp [holders_drop, hne]

/-! ## Entries -/

/-- Other instances than `i`, and the hands that hold them, are as before. -/
structure Beside (i : InstanceId) (hands hands' : List Hand) (s t : Store) : Prop where
  stateless : ∀ j, j ≠ i → (t.IsStateless j ↔ s.IsStateless j)
  unknown : ∀ j, j ≠ i → t.instance? j = none → s.instance? j = none
  marks : ∀ j m, j ≠ i → t.marks j m = s.marks j m
  slots : ∀ j, j ≠ i → t.slots j = s.slots j
  holders : ∀ j, j ≠ i → t.holders j = s.holders j
  hands : ∀ k : Hand, k.instance ≠ i → hands'.count k = hands.count k

theorem Balanced.beside (h : s.Balanced hands j) (hb : Beside i hands hands' s t) (hj : j ≠ i) :
    t.Balanced hands' j := by
  have hm := fun m => hb.marks j m hj
  have hs := hb.slots j hj
  have hh := hb.holders j hj
  have hraw := hb.hands (.raw j) hj
  have hsole := hb.hands (.sole j) hj
  have hlent := hb.hands (.lent j) hj
  have hspent := hb.hands (.spent j) hj
  constructor
  · rw [hs, hm, hm, hsole]; exact h.owners
  · rw [hm, hm, hraw]; exact h.outcome
  · rw [hs, hh, hraw, hsole, hlent, hspent]; exact h.holders
  · rw [hs, hsole, hlent]; exact h.lent
  · rw [hm, hm, hspent]; exact h.spent
  · rw [hm, hm]; exact h.processed

/-- An entry is checked at the one instance that it concerns. -/
theorem Ledger.entry (h : s.Ledger P hands) (hi : t.IsStateless i)
    (hb : Beside i hands hands' s t) (own : t.Balanced hands' i)
    (shared : ∀ r j, (t.registration r).shared = some j → Q r ∧ (j ≠ i → s.IsStateless j)) :
    t.Ledger Q hands' where
  balanced j hj := by
    by_cases hij : j = i
    · exact hij ▸ own
    · exact (h.balanced j ((hb.stateless j hij).1 hj)).beside hb hij
  shared r j hr := by
    refine ⟨(shared r j hr).1, ?_⟩
    by_cases hij : j = i
    · exact hij ▸ hi
    · exact (hb.stateless j hij).2 ((shared r j hr).2 hij)
  held k hk := by
    by_cases hki : k.instance = i
    · exact hki ▸ hi
    · refine (hb.stateless _ hki).2 (h.held k (List.count_pos_iff.1 ?_))
      rw [← hb.hands k hki]
      exact List.count_pos_iff.2 hk
  unknown j m hj := by
    have hne : j ≠ i := by
      rintro rfl
      exact instance?_ne_none hi hj
    rw [hb.marks j m hne]
    exact h.unknown j m (hb.unknown j hne hj)

theorem count_cons_other {k k' : Hand} (h : k.instance ≠ k'.instance) (hands : List Hand) :
    (k' :: hands).count k = hands.count k :=
  List.count_cons_of_ne fun he : k' = k => h (congrArg Hand.instance he.symm)

@[simp] theorem marks_note (s : Store) (a : Act) (i : InstanceId) (m : Mark) :
    (s.note a).marks i m = s.marks i m + if a.mark? = some (i, m) then 1 else 0 := by
  simp [marks, note, List.countP_cons]

@[simp] theorem slots_note (s : Store) (a : Act) (i : InstanceId) : (s.note a).slots i = s.slots i :=
  rfl

@[simp] theorem holders_note (s : Store) (a : Act) (i : InstanceId) :
    (s.note a).holders i = s.holders i := rfl

theorem beside_note {a : Act} (ha : a.mark? = some (i, m))
    (hk : ∀ k : Hand, k.instance ≠ i → hands'.count k = hands.count k) :
    Beside i hands hands' s (s.note a) where
  stateless _ _ := .rfl
  unknown _ _ h := h
  marks j m' hj := by
    have hne : ¬ (i = j ∧ m = m') := fun h => hj h.1.symm
    simp [ha, hne]
  slots _ _ := rfl
  holders _ _ := rfl
  hands := hk

section

variable {cls : ClassId}

/-- A hand on an instance that is marked becomes another hand on it. -/
theorem Ledger.note {a : Act} {k k' : Hand} (h : s.Ledger P (k :: hands))
    (ha : a.mark? = some (k.instance, m)) (hk : k'.instance = k.instance)
    (own : s.Balanced (k :: hands) k.instance → (s.note a).Balanced (k' :: hands) k.instance) :
    (s.note a).Ledger P (k' :: hands) := by
  have hi : s.IsStateless k.instance := h.held k (by simp)
  refine h.entry hi (beside_note ha fun k'' hk'' => ?_) (own (h.balanced _ hi)) fun r j hr => ?_
  · rw [count_cons_other hk'', count_cons_other (hk ▸ hk'')]
  · exact ⟨(h.shared r j hr).1, fun _ => (h.shared r j hr).2⟩

theorem Ledger.initialized (h : s.Ledger P (.raw i :: hands)) :
    (s.note (.initialized cls i (.ok ()))).Ledger P (.sole i :: hands) := by
  refine h.note rfl rfl fun ⟨ho, hf, hh, hl, hs, hq⟩ => ?_
  simp [Hand.instance] at ho hf hh hl hs hq
  constructor <;> simp [Act.mark?, Hand.instance] <;> omega

theorem Ledger.failed {cause : String} (h : s.Ledger P (.raw i :: hands)) :
    (s.note (.initialized cls i (.error cause))).Ledger P (.spent i :: hands) := by
  refine h.note rfl rfl fun ⟨ho, hf, hh, hl, hs, hq⟩ => ?_
  simp [Hand.instance] at ho hf hh hl hs hq
  constructor <;> simp [Act.mark?, Hand.instance] <;> omega

/-- A request may be processed with the instance it holds. -/
theorem Ledger.processed (h : s.Ledger P (.lent i :: hands)) :
    (s.note (.processing cls i)).Ledger P (.lent i :: hands) := by
  refine h.note rfl rfl fun ⟨ho, hf, hh, hl, hs, hq⟩ => ?_
  simp [Hand.instance] at ho hf hh hl hs hq
  constructor <;> simp [Act.mark?, Hand.instance] <;> omega

/-- An instance may be destroyed by the one who answers for it, once nobody else holds it. -/
theorem Ledger.destroyed (h : s.Ledger P (.sole i :: hands)) (hi : s.holders i = 1) :
    (s.note (.destroying cls i)).Ledger P (.spent i :: hands) := by
  refine h.note rfl rfl fun ⟨ho, hf, hh, hl, hs, hq⟩ => ?_
  simp [Hand.instance, hi] at ho hf hh hl hs hq
  constructor <;> simp [Act.mark?, Hand.instance, hi] <;> omega

end

/-! ## Holding and letting go -/

theorem beside_updateInstance {f : Instance → Instance} (hf : ∀ t, (f t).cls = t.cls)
    (hk : ∀ k : Hand, k.instance ≠ i → hands'.count k = hands.count k) :
    Beside i hands hands' s (s.updateInstance i f) where
  stateless j _ := isStateless_updateInstance hf j
  unknown j hj h := by simpa [instance?_updateInstance, hj.symm] using h
  marks _ _ _ := rfl
  slots _ _ := rfl
  holders j hj := by simp [holders, instance?_updateInstance, hj.symm]
  hands := hk

theorem isStateless_hold (s : Store) (i j : InstanceId) :
    (s.hold i).IsStateless j ↔ s.IsStateless j := by
  exact isStateless_updateInstance (fun _ => by rfl) j

theorem isStateless_drop (s : Store) (i j : InstanceId) :
    (s.drop i).IsStateless j ↔ s.IsStateless j := by
  exact isStateless_updateInstance (fun _ => by rfl) j

/-- The instance in a slot may be handed out. -/
theorem Ledger.hold (h : s.Ledger P hands) (hr : (s.registration r).shared = some i) :
    (s.hold i).Ledger P (.lent i :: hands) := by
  have hi := (h.shared r i hr).2
  have hpos := slots_pos hr
  have hold := holders_hold (instance?_ne_none hi) i
  refine h.entry ((isStateless_hold s i i).2 hi)
    (beside_updateInstance (fun _ => rfl) fun k hk => count_cons_other hk hands) ?_
    fun r j hr => ⟨(h.shared r j hr).1, fun _ => (h.shared r j hr).2⟩
  obtain ⟨ho, hf, hh, hl, hs, hq⟩ := h.balanced i hi
  have hslots : (s.hold i).slots i = s.slots i := rfl
  have hmarks : ∀ m, (s.hold i).marks i m = s.marks i m := fun _ => rfl
  constructor <;> simp [hold, hslots, hmarks] <;> omega

/-- A request gives back what it holds, and what is spent is let go of. -/
theorem Ledger.drop (h : s.Ledger P (k :: hands)) (hk : k = .lent i ∨ k = .spent i) :
    (s.drop i).Ledger P hands := by
  have hki : k.instance = i := by rcases hk with rfl | rfl <;> rfl
  have hi : s.IsStateless i := hki ▸ h.held k (by simp)
  have hdrop := holders_drop s i i
  refine h.entry ((isStateless_drop s i i).2 hi)
    (beside_updateInstance (fun _ => rfl) fun k' hk' => ?_) ?_
    fun r j hr => ⟨(h.shared r j hr).1, fun _ => (h.shared r j hr).2⟩
  · rw [count_cons_other (hki ▸ hk')]
  · have hslots : (s.drop i).slots i = s.slots i := rfl
    have hmarks : ∀ m, (s.drop i).marks i m = s.marks i m := fun _ => rfl
    obtain ⟨ho, hf, hh, hl, hs, hq⟩ := h.balanced i hi
    rcases hk with rfl | rfl
    · simp at ho hf hh hl hs hq
      constructor <;> simp [hdrop, hslots, hmarks] <;> omega
    · simp at ho hf hh hl hs hq
      constructor <;> simp [hdrop, hslots, hmarks] <;> omega

/-! ## Into a slot and out of it -/

section

variable {f : Registration → Registration}

theorem beside_updateRegistration (hr : r < s.registrations.size)
    (ho : ∀ j, j ≠ i → (s.registration r).shared ≠ some j)
    (hn : ∀ j, j ≠ i → (f (s.registration r)).shared ≠ some j)
    (hk : ∀ k : Hand, k.instance ≠ i → hands'.count k = hands.count k) :
    Beside i hands hands' s (s.updateRegistration r f) where
  stateless _ _ := .rfl
  unknown _ _ h := h
  marks _ _ _ := rfl
  slots j hj := by
    have := slots_updateRegistration (f := f) hr j
    simpa [ho j hj, hn j hj] using this
  holders _ _ := rfl
  hands := hk

/-- An initialized instance may be put into an empty slot. -/
theorem Ledger.fill (h : s.Ledger P (.sole i :: hands)) (hr : r < s.registrations.size)
    (hP : P r) (he : (s.registration r).shared = none)
    (hf : (f (s.registration r)).shared = some i) :
    (s.updateRegistration r f).Ledger P hands := by
  have hi : s.IsStateless i := h.held (.sole i) (by simp)
  refine h.entry hi (beside_updateRegistration hr (by simp [he]) ?_ fun k hk => ?_) ?_
    fun r' j hr' => ?_
  · intro j hj
    simpa [hf] using hj.symm
  · rw [count_cons_other hk]
  · have hslots := slots_updateRegistration (f := f) hr i
    simp only [he, hf, reduceCtorEq, ↓reduceIte] at hslots
    have hh' : (s.updateRegistration r f).holders i = s.holders i := rfl
    have hmarks : ∀ m, (s.updateRegistration r f).marks i m = s.marks i m := fun _ => rfl
    obtain ⟨ho, hb, hh, hl, hs, hq⟩ := h.balanced i hi
    simp at ho hb hh hl hs hq
    constructor
    · rw [hmarks, hmarks]; omega
    · rw [hmarks, hmarks]; omega
    · rw [hh']; omega
    · omega
    · rw [hmarks, hmarks]; omega
    · rw [hmarks, hmarks]; omega
  · rw [registration_updateRegistration] at hr'
    split at hr'
    · rename_i hrr
      obtain ⟨rfl, -⟩ := hrr
      rw [hf, Option.some.injEq] at hr'
      exact ⟨hP, fun hj => absurd hr'.symm hj⟩
    · exact ⟨(h.shared r' j hr').1, fun _ => (h.shared r' j hr').2⟩

theorem Ledger.publish (h : s.Ledger P (.sole i :: hands)) (hr : r < s.registrations.size)
    (hP : P r) (he : (s.registration r).shared = none) :
    (s.publish r i).Ledger P (.lent i :: hands) := by
  have hfill := h.fill (f := fun g => { g with shared := some i, locked := false }) hr hP he rfl
  refine hfill.hold (r := r) ?_
  simp [registration_updateRegistration, hr]

/-- Who empties a slot answers for what was in it. -/
theorem Ledger.empty (h : s.Ledger P hands) (he : (s.registration r).shared = some i)
    (hf : (f (s.registration r)).shared = none) :
    (s.updateRegistration r f).Ledger (fun r' => P r' ∧ r' ≠ r) (.sole i :: hands) := by
  have hi := (h.shared r i he).2
  have hr : r < s.registrations.size := (List.getElem?_eq_some_iff.1 (get?_registration he)).1
  refine h.entry hi (beside_updateRegistration hr ?_ (by simp [hf]) fun k hk => ?_) ?_
    fun r' j hr' => ?_
  · intro j hj
    simpa [he] using hj.symm
  · rw [count_cons_other hk]
  · have hslots := slots_updateRegistration (f := f) hr i
    simp only [he, hf, reduceCtorEq, ↓reduceIte] at hslots
    have hh' : (s.updateRegistration r f).holders i = s.holders i := rfl
    have hmarks : ∀ m, (s.updateRegistration r f).marks i m = s.marks i m := fun _ => rfl
    obtain ⟨ho, hb, hh, hl, hs, hq⟩ := h.balanced i hi
    constructor <;> simp [hh', hmarks] <;> omega
  · rw [registration_updateRegistration] at hr'
    by_cases hrr : r = r'
    · subst hrr
      simp [hr, hf] at hr'
    · rw [if_neg (by simp [hrr])] at hr'
      exact ⟨⟨(h.shared r' j hr').1, Ne.symm hrr⟩, fun _ => (h.shared r' j hr').2⟩

/-- An empty slot may be emptied. -/
theorem Ledger.empty_of_none (h : s.Ledger P hands) (he : (s.registration r).shared = none) :
    s.Ledger (fun r' => P r' ∧ r' ≠ r) hands :=
  { h with
    shared := fun r' i hr' => by
      refine ⟨⟨(h.shared r' i hr').1, ?_⟩, (h.shared r' i hr').2⟩
      rintro rfl
      rw [he] at hr'
      cases hr' }

end

/-! ## New instances -/

theorem instance?_add (a : Instance) (j : InstanceId) :
    Store.instance? { s with instances := s.instances.add a } j =
      if j = s.instances.size then some a else s.instance? j := Roster.get?_add ..

theorem instance?_size (s : Store) : s.instance? s.instances.size = none := by
  simp [instance?, Roster.get?, Roster.size]

/-- An instance of a class whose instances are not shared is built. -/
theorem untouched_build {a : Instance} (ha : (s.classOf a.cls).instancing.sharesInstance = false) :
    Untouched s { s with instances := s.instances.add a } where
  stateless j := by
    unfold IsStateless
    rw [instance?_add]
    split
    · rename_i hj
      subst hj
      simp [instance?_size, classOf] at ha ⊢
      exact ha
    · rfl
  marks _ _ _ := rfl
  unknown j h := by
    rw [instance?_add] at h
    split at h
    · cases h
    · exact h
  shared _ := rfl
  slots _ := rfl
  holders j hj := by
    have hne : j ≠ s.instances.size := by
      rintro rfl
      exact instance?_ne_none hj (instance?_size s)
    unfold holders
    rw [instance?_add, if_neg hne]

/-- An instance that is to be shared is built. -/
theorem Ledger.build (h : s.Ledger P hands) {a : Instance}
    (ha : (s.classOf a.cls).instancing.sharesInstance = true) (h1 : a.holders = 1) :
    Store.Ledger P (.raw s.instances.size :: hands) { s with instances := s.instances.add a } := by
  have hsize := instance?_size s
  have hn : ¬ s.IsStateless s.instances.size := fun h => instance?_ne_none h hsize
  have hi : Store.IsStateless { s with instances := s.instances.add a } s.instances.size :=
    ⟨a, by simp [instance?_add], ha⟩
  refine h.entry hi ⟨?_, ?_, fun _ _ _ => rfl, fun _ _ => rfl, ?_, fun k hk => count_cons_other hk _⟩
    ?_ fun r j hr => ⟨(h.shared r j hr).1, fun _ => (h.shared r j hr).2⟩
  · intro j hj
    unfold IsStateless
    rw [instance?_add, if_neg hj]
    rfl
  · intro j hj hjn
    rwa [instance?_add, if_neg hj] at hjn
  · intro j hj
    unfold holders
    rw [instance?_add, if_neg hj]
  · -- Nothing refers to an instance that was not there.
    have hslots := slots_eq_zero fun r hr => hn (h.shared r s.instances.size hr).2
    have hcount : ∀ k : Hand, k.instance = s.instances.size → hands.count k = 0 := fun k hk =>
      List.count_eq_zero.2 fun hmem => hn (hk ▸ h.held k hmem)
    have hmarks : ∀ m, Store.marks { s with instances := s.instances.add a } s.instances.size m = 0 :=
      fun m => h.unknown s.instances.size m hsize
    have hslots' : Store.slots { s with instances := s.instances.add a } s.instances.size = 0 := hslots
    have hh : Store.holders { s with instances := s.instances.add a } s.instances.size = 1 := by
      simp [holders, instance?_add, h1]
    have hraw := hcount (.raw s.instances.size) rfl
    have hsole := hcount (.sole s.instances.size) rfl
    have hlent := hcount (.lent s.instances.size) rfl
    have hspent := hcount (.spent s.instances.size) rfl
    constructor <;> simp [hmarks, hslots', hh, hraw, hsole, hlent, hspent]

/-! ## The writes of the stages -/

theorem untouched_measure (s : Store) (m : Meter) : Untouched s (s.measure m) :=
  untouched_of_eq rfl rfl rfl rfl

theorem untouched_setLocked (s : Store) (r : RegistrationId) (locked : Bool) :
    Untouched s (s.setLocked r locked) := untouched_updateRegistration rfl

theorem untouched_releaseSlot (s : Store) (r : RegistrationId) : Untouched s (s.releaseSlot r) :=
  untouched_updateRegistration (Registration.shared_released _)

theorem untouched_configure (s : Store) (r : RegistrationId) : Untouched s (s.configure r).1 := by
  refine untouched_updateRegistration ?_
  exact (s.registration r).shared_config

theorem untouched_activate (s : Store) (r : RegistrationId) :
    Untouched s (s.updateRegistration r fun g => { g with active := g.active + 1 }) :=
  untouched_updateRegistration rfl

theorem Ledger.giveBack (h : s.Ledger P (.lent i :: hands)) (r : RegistrationId) :
    (s.giveBack r i).Ledger P hands :=
  (h.drop (.inl rfl)).congr (untouched_releaseSlot _ r)

theorem untouched_giveBack (hi : s.IsOwn i) (r : RegistrationId) :
    Untouched s (s.giveBack r i) :=
  (untouched_drop hi).trans (untouched_releaseSlot _ r)

theorem untouched_initializing (s : Store) (r : RegistrationId) (i : InstanceId) (cls : ClassId)
    (config : HandlerConfig) :
    Untouched s (((s.configure r).1.updateInstance i fun t => { t with config := some config }).note
      (.initializing cls i config)) := by
  refine Untouched.trans ?_ (untouched_note rfl _)
  refine (s.untouched_configure r).trans (untouched_updateInstance ?_ ?_ _ i)
  · exact fun _ => rfl
  · exact fun _ => rfl

/-- What happens when an instance is built: it is refused, or it is the next one. -/
theorem instantiate_cases (s : Store) (r : RegistrationId) :
    (∃ f, (s.instantiate r).2 = .error f ∧ Untouched s (s.instantiate r).1) ∨
    ∃ a : Instance, a.cls = (s.registration r).cls ∧ a.holders = 1 ∧
      (s.instantiate r).2 = .ok s.instances.size ∧
      Untouched { s with instances := s.instances.add a } (s.instantiate r).1 := by
  unfold instantiate
  dsimp only
  split
  · refine .inl ⟨_, rfl, ?_⟩
    refine Untouched.trans ?_ (untouched_measure _ _)
    exact (untouched_note rfl s).trans (untouched_note rfl _)
  · refine .inr ⟨⟨(s.registration r).cls, s.runs (s.registration r).cls .construct, none, 1⟩,
      rfl, rfl, rfl, ?_⟩
    refine Untouched.trans ?_ (untouched_measure _ _)
    refine Untouched.trans ?_ (untouched_note rfl _)
    exact untouched_note rfl { s with instances := s.instances.add _ }

theorem shared_instantiate (s : Store) (r r' : RegistrationId) :
    ((s.instantiate r).1.registration r').shared = (s.registration r').shared := by
  rcases instantiate_cases s r with ⟨f, hf, hu⟩ | ⟨a, ha, h1, hi, hu⟩
  · exact hu.shared r'
  · exact hu.shared r'

/-- Building for a class whose instances are shared leaves a raw instance in hand. -/
theorem Ledger.instantiate (h : s.Ledger P hands)
    (hc : (s.classOf (s.registration r).cls).instancing.sharesInstance = true) :
    (∃ f, (s.instantiate r).2 = .error f ∧ (s.instantiate r).1.Ledger P hands) ∨
    ∃ i, (s.instantiate r).2 = .ok i ∧ (s.instantiate r).1.Ledger P (.raw i :: hands) := by
  rcases instantiate_cases s r with ⟨f, hf, hu⟩ | ⟨a, ha, h1, hi, hu⟩
  · exact .inl ⟨f, hf, h.congr hu⟩
  · exact .inr ⟨_, hi, (h.build (ha ▸ hc) h1).congr hu⟩

/-- Building for another class concerns nobody else. -/
theorem Ledger.instantiate_own (h : s.Ledger P hands)
    (hc : (s.classOf (s.registration r).cls).instancing.sharesInstance = false) :
    (s.instantiate r).1.Ledger P hands ∧ ∀ i, (s.instantiate r).2 = .ok i →
      (s.instantiate r).1.IsOwn i := by
  rcases instantiate_cases s r with ⟨f, hf, hu⟩ | ⟨a, ha, h1, hi, hu⟩
  · refine ⟨h.congr hu, fun i hi => ?_⟩
    rw [hf] at hi
    cases hi
  · refine ⟨(h.congr (untouched_build (ha ▸ hc))).congr hu, fun i hi' => ?_⟩
    rw [hi, Except.ok.injEq] at hi'
    subst hi'
    constructor
    · intro hn
      have := hu.unknown _ hn
      simp [instance?_add] at this
    · rw [hu.stateless]
      rintro ⟨b, hb, hs⟩
      simp only [instance?_add, ↓reduceIte, Option.some.injEq] at hb
      rw [← hb, ha] at hs
      rw [classOf] at hs hc
      rw [hc] at hs
      cases hs

/-- An instance that could not be initialized is let go of, and the slot unlocked. -/
theorem Ledger.giveUp (h : s.Ledger P (.spent i :: hands)) (r : RegistrationId) (m : Meter) :
    (((s.drop i).setLocked r false).measure m).Ledger P hands :=
  ((h.drop (.inr rfl)).congr (untouched_setLocked _ r false)).congr (untouched_measure _ m)

/-- A request finds the slot filled, and holds what is in it, or it finds the slot empty. -/
theorem Ledger.share (h : s.Ledger P hands) (r : RegistrationId) :
    (∃ i, (s.share r).2 = some i ∧ (s.share r).1 = s.hold i ∧
      (s.share r).1.Ledger P (.lent i :: hands)) ∨
    ((s.registration r).shared = none ∧ s.share r = (s, none)) := by
  unfold Store.share
  cases hs : (s.registration r).shared with
  | none => exact .inr ⟨rfl, rfl⟩
  | some i => exact .inl ⟨i, rfl, rfl, h.hold hs⟩

end Store
end Switchboard.Container
