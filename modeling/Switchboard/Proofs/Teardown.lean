import Switchboard.Proofs.Tasks

/-!
# Teardown against requests

Requests and teardowns of one registration, in any order of turns. `Spot` lists
the places where a task can be suspended, `Sound` relates the spots of all tasks
to the store: the hands of the spots balance the ledger, the registration counts
the requests as active, it is locked exactly while one of them builds, and a
parked teardown waits for a request that holds its instance or has its signal
ready. Every turn keeps it.
-/

namespace Switchboard.Container

open Activity

/-- Where a task is suspended. -/
inductive Spot where
  /-- A request that wants to look into the slot. -/
  | entering (wait : Option Signal)
  /-- A request that found the slot empty and wants to lock it. -/
  | locking (wait : Option Signal)
  /-- A request that has the slot locked, in the `init` of a new instance. -/
  | building (wait : Option Signal) (i : InstanceId) (cls : ClassId)
  | holding (i : InstanceId)
  /-- A teardown that wants to empty the slot. -/
  | calling (wait : Option Signal)
  /-- A teardown that has an instance out of the slot and waits for its release. -/
  | retiring (wait : Option Signal) (i : InstanceId)
  /-- A teardown in the `destroy` of its instance. -/
  | ending (wait : Option Signal) (i : InstanceId) (cls : ClassId)

namespace Spot

/-- The task at a spot. -/
def task (r : RegistrationId) : Spot → Task
  | entering wait => .request wait (obtainShared r >>= deliver r)
  | locking wait => .request wait (shareOrBuild r >>= deliver r)
  | building wait i cls => .request wait ((runInit r i cls >>= place r i) >>= deliver r)
  | holding i => .holding i
  | calling wait => .teardown wait (teardown r)
  | retiring wait i => .teardown wait (retire r i)
  | ending wait i cls => .teardown wait (lastStretch i cls)

def hand? : Spot → Option Hand
  | building _ i _ => some (.raw i)
  | holding i => some (.lent i)
  | retiring _ i => some (.sole i)
  | ending _ i _ => some (.spent i)
  | _ => none

/-- A request, with an instance or on the way to one. -/
def isActive : Spot → Bool
  | entering _ | locking _ | building .. | holding _ => true
  | _ => false

def isBuilding : Spot → Bool
  | building .. => true
  | _ => false

/-- A parked teardown waits for the lock, or for a release that will come or has come since. -/
def IsAwaited (r : RegistrationId) (s : Store) (spots : List Spot) : Spot → Prop
  | calling (some w) => w = .unlock r
  | retiring (some w) i => ∃ seen, w = .release r seen ∧ seen ≤ (s.registration r).releases ∧
      (holding i ∈ spots ∨ seen < (s.registration r).releases)
  | ending (some _) _ _ => False
  | _ => True

end Spot

structure Sound (r : RegistrationId) (s : Store) (spots : List Spot) : Prop where
  ledger : s.Ledger (· = r) (spots.filterMap Spot.hand?)
  sharing : s.Sharing (· = r) r
  shares : (s.registration r).instancing.sharesInstance = true
  active : (s.registration r).active = spots.countP Spot.isActive
  locked : spots.countP Spot.isBuilding = (s.registration r).locked.toNat
  vacant : (s.registration r).locked = true → (s.registration r).shared = none
  awaited : ∀ q ∈ spots, q.IsAwaited r s spots

section

variable {r : RegistrationId} {s t : Store} {spots old new ps : List Spot} {i : InstanceId}

theorem Spot.IsAwaited.mono {q : Spot} (h : q.IsAwaited r s spots)
    (hr : (s.registration r).releases ≤ (t.registration r).releases)
    (hold : ∀ i, .holding i ∈ spots →
      .holding i ∈ new ∨ (s.registration r).releases < (t.registration r).releases) :
    q.IsAwaited r t new := by
  cases q with
  | retiring wait i =>
    cases wait with
    | none => trivial
    | some w =>
      obtain ⟨seen, hw, hle, hor⟩ := h
      refine ⟨seen, hw, by omega, ?_⟩
      rcases hor with hh | hlt
      · exact (hold i hh).imp_right fun _ => by omega
      · exact .inr (by omega)
  | calling wait => cases wait <;> exact h
  | ending wait i cls => cases wait <;> exact h
  | _ => trivial

theorem Sound.perm (h : Sound r s spots) (hp : spots.Perm new) : Sound r s new where
  ledger := h.ledger.perm (hp.filterMap _)
  sharing := h.sharing
  shares := h.shares
  active := by rw [h.active, hp.countP_eq]
  locked := by rw [← hp.countP_eq, h.locked]
  vacant := h.vacant
  awaited q hq := (h.awaited q (hp.mem_iff.2 hq)).mono (Nat.le_refl _) fun i hi =>
    .inl (hp.mem_iff.1 hi)

/-- One turn: some spots give way to others, with the numbers moved accordingly. -/
theorem Sound.turn (old new : List Spot) (h : Sound r s (old ++ ps)) {u : Usage} (hu : t.usage r = u)
    (ledger : t.Ledger (· = r) (new.filterMap Spot.hand? ++ ps.filterMap Spot.hand?))
    (steady : s.Steady t)
    (active : u.active + old.countP Spot.isActive =
      (s.usage r).active + new.countP Spot.isActive)
    (locked : new.countP Spot.isBuilding + (s.usage r).locked.toNat =
      old.countP Spot.isBuilding + u.locked.toNat)
    (vacant : u.locked = true → u.shared = none)
    (releases : (s.usage r).releases ≤ u.releases)
    (awaited : ∀ q ∈ new, q.IsAwaited r t (new ++ ps))
    (hold : ∀ i, .holding i ∈ old → .holding i ∈ new ∨ (s.usage r).releases < u.releases) :
    Sound r t (new ++ ps) := by
  subst hu
  refine ⟨?_, h.sharing.steady steady, ?_, ?_, ?_, vacant, fun q hq => ?_⟩
  · rw [List.filterMap_append]
    exact ledger
  · rw [steady.instancing]
    exact h.shares
  · have ha : (s.usage r).active = _ := h.active
    show (t.usage r).active = _
    rw [List.countP_append] at ha ⊢
    omega
  · have hl : _ = (s.usage r).locked.toNat := h.locked
    show _ = (t.usage r).locked.toNat
    rw [List.countP_append] at hl ⊢
    omega
  · rcases List.mem_append.1 hq with hq | hq
    · exact awaited q hq
    · refine (h.awaited q (List.mem_append_right _ hq)).mono releases fun i hi => ?_
      rcases List.mem_append.1 hi with hi | hi
      · exact (hold i hi).imp_left fun hn => List.mem_append_left _ hn
      · exact .inl (List.mem_append_right _ hi)

theorem Sound.active_pos {q : Spot} (h : Sound r s (q :: ps)) (hq : q.isActive = true) :
    0 < (s.usage r).active := by
  have ha : (s.usage r).active = _ := h.active
  rw [ha, List.countP_cons_of_pos hq]
  omega

theorem Sound.isRegistered (h : Sound r s spots) : r < s.registrations.size := h.sharing.registered

theorem Sound.elsewhere (h : Sound r s spots) (he : Elsewhere r s t) : Sound r t spots := by
  have hsh : (t.registration r).shared = _ := congrArg Usage.shared he.usage
  have hlo : (t.registration r).locked = _ := congrArg Usage.locked he.usage
  have hac : (t.registration r).active = _ := congrArg Usage.active he.usage
  have hre : (t.registration r).releases = _ := congrArg Usage.releases he.usage
  refine ⟨h.ledger.congr he.untouched, h.sharing.enrols he.enrols, ?_, ?_, ?_, ?_, ?_⟩
  · rw [he.enrols.instancing h.isRegistered]
    exact h.shares
  · rw [hac]
    exact h.active
  · rw [hlo]
    exact h.locked
  · rw [hlo, hsh]
    exact h.vacant
  · exact fun q hq => (h.awaited q hq).mono (Nat.le_of_eq hre.symm) fun i hi => .inl hi

/-- A task that stays where it is, parked. -/
theorem Sound.park {q q' : Spot} (h : Sound r s (q :: ps)) (hand : q'.hand? = q.hand?)
    (active : q'.isActive = q.isActive) (building : q'.isBuilding = q.isBuilding)
    (awaited : q'.IsAwaited r s (q' :: ps)) (hold : ∀ i, q ≠ .holding i) :
    Sound r s (q' :: ps) := by
  refine Sound.turn [q] [q'] h rfl ?_ (.refl s) ?_ ?_ h.vacant (Nat.le_refl _) ?_ ?_
  · have hl := h.ledger
    rw [List.filterMap_cons, ← hand] at hl
    rw [List.filterMap_cons]
    cases hq : q'.hand? <;> simpa [hq] using hl
  · simp [List.countP_cons, active]
  · simp [List.countP_cons, building]
  · simpa using awaited
  · intro i hi
    exact absurd (List.mem_singleton.1 hi).symm (hold i)

/-! ## Requests -/

/-- What a turn of a request comes to. -/
def Goes (r : RegistrationId) (ps : List Spot)
    (out : Store × Option Signal × Work (Except Fault InstanceId)) : Prop :=
  ∃ new, Task.ofRequest out.2.1 out.2.2 = new.map (Spot.task r) ∧ Sound r out.1 (new ++ ps)

theorem Sound.request (h : Sound r s ps) :
    Goes r ps (((createHandler r).stretch s).1, none, ((createHandler r).stretch s).2) := by
  rw [stretch_createHandler h.shares]
  refine ⟨[.entering none], rfl, ?_⟩
  refine Sound.turn [] [.entering none] h (Store.usage_activate h.isRegistered)
    (h.ledger.congr (s.untouched_activate r)) (Store.steady_updateRegistration rfl) ?_ ?_ h.vacant
    (Nat.le_refl _) ?_ ?_
  · simp [Spot.isActive]
  · simp [Spot.isBuilding]
  · simp [Spot.IsAwaited]
  · simp

/-- A request that finds the slot filled holds what is in it. -/
theorem Sound.finds {q : Spot} (h : Sound r s (q :: ps)) (hand : q.hand? = none)
    (active : q.isActive = true) (building : q.isBuilding = false)
    (hs : (s.registration r).shared = some i) : Sound r (s.hold i) (.holding i :: ps) := by
  have hl : s.Ledger (· = r) (ps.filterMap Spot.hand?) := by
    have := h.ledger
    rwa [List.filterMap_cons_none hand] at this
  have hu : (s.hold i).usage r = s.usage r := rfl
  have hact : (Spot.holding i).isActive = true := rfl
  have hbld : (Spot.holding i).isBuilding = false := rfl
  refine Sound.turn [q] [.holding i] h hu (hl.hold hs) (s.quietly_updateInstance i _).2 ?_ ?_
    h.vacant (Nat.le_refl _) ?_ ?_
  · simp [hact, active]
  · simp [hbld, building]
  · simp [Spot.IsAwaited]
  · rintro j hj
    rw [List.mem_singleton] at hj
    rw [← hj] at active hand
    cases hand

theorem Sound.entering {wait : Option Signal} (h : Sound r s (.entering wait :: ps)) :
    Goes r ps ((obtainShared r >>= deliver r).resume s) := by
  cases hu : s.isUnlocked r with
  | false =>
    rw [(resume_locked hu).1]
    exact ⟨[.entering (some (.unlock r))], rfl, h.park rfl rfl rfl trivial (by simp)⟩
  | true =>
    rw [resume_obtainShared hu]
    cases hs : (s.registration r).shared with
    | some i =>
      have hsh : s.share r = (s.hold i, some i) := by rw [Store.share, hs]
      rw [hsh]
      exact ⟨[.holding i], rfl, h.finds rfl rfl rfl hs⟩
    | none =>
      have hsh : s.share r = (s, none) := by rw [Store.share, hs]
      rw [hsh]
      exact ⟨[.locking none], rfl, h.park rfl rfl rfl trivial (by simp)⟩

/-- A request that has locked the slot builds, up to the `init`, or gives up if it cannot. -/
theorem Sound.builds {wait : Option Signal} (h : Sound r s (.locking wait :: ps))
    (hu : s.isUnlocked r = true) (hs : (s.registration r).shared = none) :
    Goes r ps ((shareOrBuild r >>= deliver r).resume s) := by
  have hsh : s.share r = (s, none) := by rw [Store.share, hs]
  rw [resume_shareOrBuild_none hu hsh]
  have hl : (s.setLocked r true).Ledger (· = r) (ps.filterMap Spot.hand?) :=
    Store.Ledger.congr h.ledger (s.untouched_setLocked r true)
  have hfree : (s.usage r).locked = false := by simpa [Store.isUnlocked, Store.usage] using hu
  have hst := (s.quietly_setLocked r true).2
  have hst' := hst.trans _ _ _ ((s.setLocked r true).quietly_instantiate r).2
  have hr' := hst'.size ▸ h.isRegistered
  have hiu : ((s.setLocked r true).instantiate r).1.usage r = { s.usage r with locked := true } :=
    (Store.usage_instantiate _ r).trans (Store.usage_setLocked h.isRegistered true)
  rcases hl.instantiate ((h.sharing.steady hst).shares) with ⟨f, hf, hl'⟩ | ⟨i, hi, hl'⟩
  · rw [hf]
    refine ⟨[], rfl, ?_⟩
    have huv := Store.usage_setLocked hr' false
    rw [hiu] at huv
    have hpos := h.active_pos rfl
    have hrel := Store.usage_releaseSlot (r := r) (Store.size_setLocked _ r false ▸ hr')
      (by rw [huv]; exact hpos)
    rw [huv] at hrel
    refine Sound.turn [.locking wait] [] h hrel ((hl'.congr (Store.untouched_setLocked _ r false)).congr
      (Store.untouched_releaseSlot _ r)) ((hst'.trans _ _ _ (Store.quietly_setLocked _ r false).2).trans
      _ _ _ (Store.quietly_releaseSlot _ r).2) ?_ ?_ (by simp) (Nat.le_succ _) (by simp) (by simp)
    · simp [Spot.isActive]
      omega
    · simp [Spot.isBuilding, hfree]
  · rw [hi]
    refine ⟨[.building none i _], rfl, ?_⟩
    have hbu := ((s.setLocked r true).instantiate r).1.usage_begin r i
    rw [hiu] at hbu
    refine Sound.turn [.locking wait] [.building none i _] h hbu
      (hl'.congr (Store.untouched_initializing _ r i _ _)) (hst'.trans _ _ _ (Store.quietly_begin _ r i).2)
      ?_ ?_ (fun _ => hs) (Nat.le_refl _) (by simp [Spot.IsAwaited]) (by simp)
    · simp [Spot.isActive]
    · simp [Spot.isBuilding, hfree]

theorem Sound.locking {wait : Option Signal} (h : Sound r s (.locking wait :: ps)) :
    Goes r ps ((shareOrBuild r >>= deliver r).resume s) := by
  cases hu : s.isUnlocked r with
  | false =>
    rw [(resume_locked hu).2.1]
    exact ⟨[.locking (some (.unlock r))], rfl, h.park rfl rfl rfl trivial (by simp)⟩
  | true =>
    cases hs : (s.registration r).shared with
    | some i =>
      have hsh : s.share r = (s.hold i, some i) := by rw [Store.share, hs]
      rw [resume_shareOrBuild_some hu (congrArg Prod.snd hsh), hsh]
      exact ⟨[.holding i], rfl, h.finds rfl rfl rfl hs⟩
    | none => exact h.builds hu hs

/-- Who builds has the slot locked. -/
theorem Sound.locked_of_building {wait : Option Signal} {cls : ClassId}
    (h : Sound r s (.building wait i cls :: ps)) : (s.registration r).locked = true := by
  have hb := h.locked
  rw [List.countP_cons_of_pos rfl] at hb
  cases hl : (s.registration r).locked with
  | true => rfl
  | false =>
    rw [hl] at hb
    cases hb

/-- A new instance is initialized: it goes into the slot, and the request holds it. -/
theorem Sound.publishes {wait : Option Signal} {cls : ClassId}
    (h : Sound r s (.building wait i cls :: ps)) :
    Sound r ((s.note (.initialized cls i (.ok ()))).publish r i) (.holding i :: ps) := by
  have hlocked : (s.usage r).locked = true := h.locked_of_building
  have hl : (s.note (.initialized cls i (.ok ()))).Ledger _ _ := Store.Ledger.initialized h.ledger
  refine Sound.turn [.building wait i cls] [.holding i] h (Store.usage_publish h.isRegistered i)
    (hl.publish h.isRegistered rfl (h.vacant hlocked)) ((Store.quietly_note ⟨rfl, rfl⟩ s).trans
      (Store.quietly_publish _ r i)).2 ?_ ?_ (by simp) (Nat.le_refl _) (by simp [Spot.IsAwaited]) (by simp)
  · simp [Spot.isActive]
  · simp [Spot.isBuilding, hlocked]

/-- A new instance fails to initialize: it is dropped, and the request is over. -/
theorem Sound.abandons {wait : Option Signal} {cls : ClassId} {u : Store} {cause : String}
    (h : Sound r s (.building wait i cls :: ps)) (hu : u = s.note (.initialized cls i (.error cause)))
    (m : Meter) : Sound r ((((u.drop i).setLocked r false).measure m).releaseSlot r) ps := by
  have hlocked : (s.usage r).locked = true := h.locked_of_building
  have hsu : s.Quietly u := hu ▸ Store.quietly_note ⟨rfl, rfl⟩ s
  have hl : u.Ledger (· = r) (.spent i :: ps.filterMap Spot.hand?) := hu ▸ Store.Ledger.failed h.ledger
  have hr : r < (u.drop i).registrations.size := hsu.2.size ▸ h.isRegistered
  have hv : (((u.drop i).setLocked r false).measure m).usage r = { s.usage r with locked := false } := by
    have hus : u.usage r = s.usage r := hu ▸ rfl
    rw [← hus]
    exact Store.usage_setLocked hr false
  have hmr : r < (((u.drop i).setLocked r false).measure m).registrations.size := by
    show r < ((u.drop i).setLocked r false).registrations.size
    rwa [Store.size_setLocked]
  have hpos := h.active_pos rfl
  have hrel := Store.usage_releaseSlot hmr (by rw [hv]; exact hpos)
  rw [hv] at hrel
  refine Sound.turn [.building wait i cls] [] h hrel
    ((hl.giveUp r m).congr (Store.untouched_releaseSlot _ r)) ?_ ?_ ?_ (by simp) (Nat.le_succ _)
    (by simp) (by simp)
  · exact (((hsu.trans (u.quietly_drop i)).trans (Store.quietly_setLocked _ r false)).trans
      ((Store.quietly_measure _ m).trans (Store.quietly_releaseSlot _ r))).2
  · simp [Spot.isActive]
    omega
  · simp [Spot.isBuilding, hlocked]

theorem Sound.building {wait : Option Signal} {cls : ClassId}
    (h : Sound r s (.building wait i cls :: ps)) :
    Goes r ps (((runInit r i cls >>= place r i) >>= deliver r).resume s) := by
  obtain ⟨outcome, ho⟩ := resume_runInit (s := s) (r := r) (i := i) cls
  rw [ho]
  cases outcome with
  | ok => exact ⟨[.holding i], rfl, h.publishes⟩
  | error cause => exact ⟨[], rfl, h.abandons rfl _⟩

theorem Sound.process (h : Sound r s (.holding i :: ps)) (cls : ClassId) :
    Sound r (s.note (.processing cls i)) (.holding i :: ps) := by
  have hu : (s.note (.processing cls i)).usage r = s.usage r := rfl
  refine Sound.turn [.holding i] [.holding i] h hu (Store.Ledger.processed h.ledger)
    (Store.steady_of_eq rfl rfl rfl) rfl rfl h.vacant (Nat.le_refl _) (by simp [Spot.IsAwaited])
    fun i hi => .inl hi

theorem Sound.release (h : Sound r s (.holding i :: ps)) : Sound r (s.giveBack r i) ps := by
  have hrel := Store.usage_releaseSlot (r := r) (s := s.drop i) h.isRegistered (h.active_pos rfl)
  refine Sound.turn [.holding i] [] h hrel (Store.Ledger.giveBack h.ledger r)
    (s.quietly_giveBack r i).2 ?_ ?_ h.vacant (Nat.le_succ _) (by simp) fun _ _ =>
      .inr (Nat.lt_succ_self _)
  · have := h.active_pos rfl
    have hd : ((s.drop i).usage r).active = (s.usage r).active := rfl
    simp [Spot.isActive, hd]
    omega
  · simp [Spot.isBuilding]
    rfl

/-! ## Teardowns -/

/-- What a turn of a teardown comes to. -/
def Ends (r : RegistrationId) (ps : List Spot) (out : Store × Option Signal × Work Unit) : Prop :=
  ∃ new, Task.ofTeardown out.2.1 out.2.2 = new.map (Spot.task r) ∧ Sound r out.1 (new ++ ps)

theorem Sound.teardown (h : Sound r s ps) :
    Ends r ps (((Container.teardown r).stretch s).1, none, ((Container.teardown r).stretch s).2) := by
  refine ⟨[.calling none], rfl, ?_⟩
  exact Sound.turn [] [.calling none] h rfl h.ledger (.refl s) rfl rfl h.vacant (Nat.le_refl _)
    (by simp [Spot.IsAwaited]) (by simp)

theorem Sound.calling {wait : Option Signal} (h : Sound r s (.calling wait :: ps)) :
    Ends r ps ((Container.teardown r).resume s) := by
  cases hu : s.isUnlocked r with
  | false =>
    rw [(resume_locked hu).2.2]
    exact ⟨[.calling (some (.unlock r))], rfl, h.park rfl rfl rfl rfl (by simp)⟩
  | true =>
    rw [resume_teardown hu]
    have htake := Store.usage_takeShared (s := s) h.isRegistered
    have hl : s.Ledger (· = r) (ps.filterMap Spot.hand?) := h.ledger
    have hst : s.Steady (s.takeShared r).1 := Store.steady_updateRegistration rfl
    cases hs : (s.registration r).shared with
    | none =>
      refine ⟨[], rfl, ?_⟩
      exact Sound.turn [.calling wait] [] h htake
        (hl.congr (Store.untouched_updateRegistration hs.symm)) hst rfl rfl (fun _ => rfl)
        (Nat.le_refl _) (by simp) (by simp)
    | some i =>
      refine ⟨[.retiring none i], rfl, ?_⟩
      exact Sound.turn [.calling wait] [.retiring none i] h htake
        ((hl.empty hs rfl).mono fun _ h => h.1) hst rfl rfl (fun _ => rfl)
        (Nat.le_refl _) (by simp [Spot.IsAwaited]) (by simp)

/-- Besides the teardown only requests hold an instance that is out of its slot. -/
theorem Sound.holders_retiring {wait : Option Signal} (h : Sound r s (.retiring wait i :: ps)) :
    s.holders i = 1 + (ps.filterMap Spot.hand?).count (.lent i) := by
  have hi : s.IsStateless i := h.ledger.held (.sole i) (by simp [Spot.hand?])
  obtain ⟨ho, hf, hh, -, hs, -⟩ := h.ledger.balanced i hi
  simp [Spot.hand?] at ho hf hh hs
  omega

theorem mem_of_lent (h : .lent i ∈ ps.filterMap Spot.hand?) : .holding i ∈ ps := by
  obtain ⟨q, hq, hh⟩ := List.mem_filterMap.1 h
  cases q <;> simp [Spot.hand?] at hh
  exact hh ▸ hq

/-- A teardown that may go on is the only one left that holds its instance. -/
theorem Sound.sole {wait : Option Signal} (h : Sound r s (.retiring wait i :: ps))
    (hq : s.isQuiet r i = true) : s.holders i = 1 := by
  unfold Store.isQuiet at hq
  rcases Bool.or_eq_true _ _ ▸ hq with hq | hq
  · simpa using hq
  · have ha : (s.registration r).active = 0 := by simpa using hq
    rw [h.active, List.countP_eq_zero] at ha
    rw [h.holders_retiring, List.count_eq_zero.2]
    intro hm
    exact ha _ (List.mem_cons_of_mem _ (mem_of_lent hm)) rfl

theorem Sound.retiring {wait : Option Signal} (h : Sound r s (.retiring wait i :: ps)) :
    Ends r ps ((retire r i).resume s) := by
  cases hq : s.isQuiet r i with
  | false =>
    rw [resume_retire_wait hq]
    refine ⟨[.retiring (some (.release r (s.registration r).releases)) i], rfl,
      h.park rfl rfl rfl ?_ (by simp)⟩
    refine ⟨_, rfl, Nat.le_refl _, .inl (List.mem_cons_of_mem _ (mem_of_lent ?_))⟩
    -- It is parked because somebody else holds the instance.
    refine List.count_pos_iff.1 ?_
    have hh := h.holders_retiring
    simp [Store.isQuiet] at hq
    omega
  | true =>
    have h1 := h.sole hq
    rw [resume_retire hq h1]
    refine ⟨[.ending none i _], rfl, ?_⟩
    have hu : (s.note (.destroying (s.classOfInstance i) i)).usage r = s.usage r := rfl
    exact Sound.turn [.retiring wait i] [.ending none i _] h hu (Store.Ledger.destroyed h.ledger h1)
      (Store.steady_of_eq rfl rfl rfl) rfl rfl h.vacant (Nat.le_refl _) (by simp [Spot.IsAwaited])
      (by simp)

theorem Sound.ending {wait : Option Signal} {cls : ClassId}
    (h : Sound r s (.ending wait i cls :: ps)) :
    Ends r ps ((lastStretch i cls).resume s) := by
  obtain ⟨outcome, ho⟩ := resume_lastStretch (s := s) (i := i) cls
  rw [ho]
  refine ⟨[], rfl, ?_⟩
  have hl : (s.note (.destroyed cls i outcome)).Ledger (· = r) (.spent i :: ps.filterMap Spot.hand?) :=
    Store.Ledger.congr h.ledger (Store.untouched_note rfl s)
  have hu : ((s.note (.destroyed cls i outcome)).drop i).usage r = s.usage r := rfl
  exact Sound.turn [.ending wait i cls] [] h hu (hl.drop (.inr rfl))
    (Store.steady_of_eq rfl rfl rfl) rfl rfl h.vacant (Nat.le_refl _) (by simp) (by simp)

/-! ## All turns -/

/-- A spot in the middle of others can have its turn at their head. -/
theorem Sound.middle {q : Spot} {before after : List Spot} (h : Sound r s (before ++ q :: after)) :
    Sound r s (q :: (before ++ after)) := h.perm List.perm_middle

theorem Sound.put_back {before after : List Spot} (h : Sound r s (new ++ (before ++ after))) :
    Sound r s (before ++ (new ++ after)) := by
  refine h.perm ?_
  rw [← List.append_assoc, ← List.append_assoc]
  exact List.perm_append_comm.append_right after

theorem Sound.resumeRequest {q : Spot} {wait : Option Signal} {x : Work (Except Fault InstanceId)}
    (h : Sound r s (q :: ps)) (hq : q.task r = .request wait x) : Goes r ps (x.resume s) := by
  cases q with
  | entering w =>
    obtain ⟨rfl, rfl⟩ := Task.request.inj hq
    exact h.entering
  | locking w =>
    obtain ⟨rfl, rfl⟩ := Task.request.inj hq
    exact h.locking
  | building w i cls =>
    obtain ⟨rfl, rfl⟩ := Task.request.inj hq
    exact h.building
  | holding i => cases hq
  | calling w => cases hq
  | retiring w i => cases hq
  | ending w i cls => cases hq

theorem Sound.resumeTeardown {q : Spot} {wait : Option Signal} {x : Work Unit}
    (h : Sound r s (q :: ps)) (hq : q.task r = .teardown wait x) : Ends r ps (x.resume s) := by
  cases q with
  | calling w =>
    obtain ⟨rfl, rfl⟩ := Task.teardown.inj hq
    exact h.calling
  | retiring w i =>
    obtain ⟨rfl, rfl⟩ := Task.teardown.inj hq
    exact h.retiring
  | ending w i cls =>
    obtain ⟨rfl, rfl⟩ := Task.teardown.inj hq
    exact h.ending
  | entering w => cases hq
  | locking w => cases hq
  | building w i cls => cases hq
  | holding i => cases hq

theorem holding_of_task {q : Spot} (hq : q.task r = .holding i) : q = .holding i := by
  cases q with
  | holding j => rw [Task.holding.inj hq]
  | _ => cases hq

theorem Step.sound {ts ts' : List Task} (hs : Step r s ts t ts') {spots : List Spot}
    (ht : ts = spots.map (Spot.task r)) (h : Sound r s spots) :
    ∃ spots', ts' = spots'.map (Spot.task r) ∧ Sound r t spots' := by
  cases hs with
  | request =>
    obtain ⟨new, hn, hnew⟩ := h.request
    exact ⟨new ++ spots, by rw [List.map_append, ← hn, ht], hnew⟩
  | teardown =>
    obtain ⟨new, hn, hnew⟩ := h.teardown
    exact ⟨new ++ spots, by rw [List.map_append, ← hn, ht], hnew⟩
  | resumeRequest x before after hw =>
    obtain ⟨b, qa, rfl, rfl, hqa⟩ := List.map_eq_append_iff.1 ht.symm
    obtain ⟨q, a, rfl, hq, rfl⟩ := List.map_eq_cons_iff.1 hqa
    obtain ⟨new, hn, hnew⟩ := h.middle.resumeRequest hq
    exact ⟨b ++ (new ++ a), by rw [hn]; simp, hnew.put_back⟩
  | resumeTeardown x before after hw =>
    obtain ⟨b, qa, rfl, rfl, hqa⟩ := List.map_eq_append_iff.1 ht.symm
    obtain ⟨q, a, rfl, hq, rfl⟩ := List.map_eq_cons_iff.1 hqa
    obtain ⟨new, hn, hnew⟩ := h.middle.resumeTeardown hq
    exact ⟨b ++ (new ++ a), by rw [hn]; simp, hnew.put_back⟩
  | @process _ i cls hi =>
    obtain ⟨q, hq, hqi⟩ := List.mem_map.1 (ht ▸ hi)
    obtain rfl := holding_of_task hqi
    obtain ⟨b, a, rfl⟩ := List.append_of_mem hq
    exact ⟨_, ht, (h.middle.process cls).perm List.perm_middle.symm⟩
  | release i before after =>
    obtain ⟨b, qa, rfl, rfl, hqa⟩ := List.map_eq_append_iff.1 ht.symm
    obtain ⟨q, a, rfl, hq, rfl⟩ := List.map_eq_cons_iff.1 hqa
    obtain rfl := holding_of_task hq
    exact ⟨b ++ a, by simp, h.middle.release⟩
  | elsewhere _ he => exact ⟨spots, ht, h.elsewhere he⟩

theorem Unused.sound (h : Unused r s) : Sound r s [] := by
  have hnone : ∀ i, s.instance? i = none := fun i => by
    simp [Store.instance?, h.instances, Roster.get?]
  have hno : ∀ i, ¬ s.IsStateless i := fun i hi => Store.instance?_ne_none hi (hnone i)
  refine ⟨⟨fun i hi => absurd hi (hno i), fun r' i hr' => ?_, by simp, fun i m _ => ?_⟩,
    ⟨h.registered, rfl, h.policy ▸ h.shares⟩, h.shares, by simp [h.active], by simp [h.locked],
    fun _ => h.vacant r, by simp⟩
  · rw [h.vacant] at hr'
    cases hr'
  · simp [Store.marks, h.acts]

theorem Reach.sound {ts : List Task} (h : Reach r s ts) :
    ∃ spots, ts = spots.map (Spot.task r) ∧ Sound r s spots := by
  induction h with
  | start hu => exact ⟨[], rfl, hu.sound⟩
  | step _ hs ih =>
    obtain ⟨spots, ht, h⟩ := ih
    exact hs.sound ht h

/-! ## What the spots say of the tasks -/

theorem countP_isActive (spots : List Spot) :
    (spots.map (Spot.task r)).countP Task.isHolding + (spots.map (Spot.task r)).countP Task.isRequest =
      spots.countP Spot.isActive := by
  rw [List.countP_map, List.countP_map]
  induction spots with
  | nil => rfl
  | cons q spots ih =>
    rw [List.countP_cons, List.countP_cons, List.countP_cons]
    cases q <;> simp [Spot.task, Task.isHolding, Task.isRequest, Spot.isActive] <;> omega

/-- An instance that is held has not been destroyed. -/
theorem Sound.not_destroyed (h : Sound r s spots) (hi : .holding i ∈ spots) :
    s.marks i .destroyed = 0 := by
  have hm : .lent i ∈ spots.filterMap Spot.hand? := List.mem_filterMap.2 ⟨_, hi, rfl⟩
  obtain ⟨ho, hf, -, hl, -, -⟩ := h.ledger.balanced i (h.ledger.held _ hm)
  have := List.count_pos_iff.2 hm
  omega

/-- A turn lets go of a held instance only where nothing is noted. -/
theorem Step.holding {ts ts' : List Task} (hs : Step r s ts t ts') (hi : .holding i ∈ ts) :
    .holding i ∈ ts' ∨ t.acts = s.acts := by
  cases hs with
  | request => exact .inl (List.mem_append_right _ hi)
  | teardown => exact .inl (List.mem_append_right _ hi)
  | resumeRequest x before after hw =>
    simp only [List.mem_append, List.mem_cons, reduceCtorEq, false_or] at hi ⊢
    exact .inl (hi.imp_right .inr)
  | resumeTeardown x before after hw =>
    simp only [List.mem_append, List.mem_cons, reduceCtorEq, false_or] at hi ⊢
    exact .inl (hi.imp_right .inr)
  | process cls hj => exact .inl hi
  | release j before after => exact .inr rfl
  | elsewhere _ he => exact .inl hi

theorem Sound.exists_building (h : Sound r s spots) (hl : (s.registration r).locked = true) :
    ∃ wait i cls, .building wait i cls ∈ spots := by
  have hb := h.locked
  rw [hl] at hb
  obtain ⟨q, hq, hqb⟩ := List.countP_pos_iff.1 (by rw [hb]; decide)
  cases q with
  | building wait i cls => exact ⟨wait, i, cls, hq⟩
  | _ => cases hqb

/-- An initialized instance is in the slot, with a teardown that waits for its release, or destroyed. -/
theorem Sound.kept (h : Sound r s spots) (hi : s.IsStateless i) (hn : 0 < s.marks i .initialized) :
    (s.registration r).shared = some i ∨ (∃ wait, .retiring wait i ∈ spots) ∨
      s.marks i .destroyed = 1 := by
  obtain ⟨ho, hf, -, -, -, -⟩ := h.ledger.balanced i hi
  by_cases hs : s.slots i = 0
  · by_cases hc : (spots.filterMap Spot.hand?).count (.sole i) = 0
    · exact .inr (.inr (by omega))
    · have hm := List.count_pos_iff.1 (Nat.pos_of_ne_zero hc)
      obtain ⟨q, hq, hh⟩ := List.mem_filterMap.1 hm
      cases q <;> simp [Spot.hand?] at hh
      exact .inr (.inl ⟨_, hh ▸ hq⟩)
  · obtain ⟨r', hr'⟩ := Store.exists_of_slots_pos (Nat.pos_of_ne_zero hs)
    obtain rfl := (h.ledger.shared r' i hr').1
    exact .inl hr'

/-- A teardown that waits for the release of `i` goes on to destroy it. -/
def Destroys (r : RegistrationId) (s : Store) (i : InstanceId) : Prop :=
  s.isQuiet r i = true → (retire r i).resume s = (s.note (.destroying (s.classOfInstance i) i), none,
    lastStretch i (s.classOfInstance i))

/-- What holds of a registration and those at work on it after every turn. -/
structure Orderly (r : RegistrationId) (s : Store) (ts : List Task) : Prop where
  /-- Counted as active are the requests that hold an instance and those that do not yet. -/
  active : (s.registration r).active = ts.countP Task.isHolding + ts.countP Task.isRequest
  /-- No instance is destroyed twice. -/
  once : ∀ i, s.IsStateless i → s.marks i .destroyed ≤ 1
  /-- What is out of the slot and not destroyed is with a teardown that will destroy it. -/
  kept : ∀ i, s.IsStateless i → 0 < s.marks i .initialized →
    (s.registration r).shared = some i ∨
      (∃ wait, .teardown wait (retire r i) ∈ ts ∧ Destroys r s i) ∨ s.marks i .destroyed = 1
  /-- A teardown wants the slot, waits for the release of what it took, or is destroying it. -/
  tearing : ∀ wait x, .teardown wait x ∈ ts → x = Container.teardown r ∨
    (∃ i, x = retire r i ∧ Destroys r s i) ∨ ∃ i cls, x = lastStretch i cls
  /-- What a parked teardown waits for has come, or the request that it waits for is there. -/
  awaited : ∀ w x, .teardown (some w) x ∈ ts → s.isReady w = true ∨
    (w = .unlock r ∧
      ∃ wait i cls, .request wait ((runInit r i cls >>= place r i) >>= deliver r) ∈ ts) ∨
    ∃ i, x = retire r i ∧ .holding i ∈ ts
  /-- No turn starts to destroy what a request holds. -/
  held : ∀ t ts', Step r s ts t ts' → ∀ i, s.IsStateless i →
    s.marks i .destroyed < t.marks i .destroyed → .holding i ∉ ts

theorem Sound.destroys {wait : Option Signal} (h : Sound r s spots) (hi : .retiring wait i ∈ spots) :
    Destroys r s i := by
  intro hq
  obtain ⟨before, after, rfl⟩ := List.append_of_mem hi
  exact resume_retire hq (h.middle.sole hq)

theorem Sound.tearing {wait : Option Signal} {x : Work Unit} {q : Spot} (h : Sound r s spots)
    (hq : q ∈ spots) (hx : q.task r = .teardown wait x) : x = Container.teardown r ∨
      (∃ i, x = retire r i ∧ Destroys r s i) ∨
      ∃ i cls, x = lastStretch i cls := by
  cases q with
  | calling w =>
    obtain ⟨rfl, rfl⟩ := Task.teardown.inj hx
    exact .inl rfl
  | retiring w i =>
    obtain ⟨rfl, rfl⟩ := Task.teardown.inj hx
    exact .inr (.inl ⟨i, rfl, h.destroys hq⟩)
  | ending w i cls =>
    obtain ⟨rfl, rfl⟩ := Task.teardown.inj hx
    exact .inr (.inr ⟨i, cls, rfl⟩)
  | entering w => cases hx
  | locking w => cases hx
  | building w i cls => cases hx
  | holding i => cases hx

theorem Sound.waits {w : Signal} {x : Work Unit} {q : Spot} (h : Sound r s spots)
    (hq : q ∈ spots) (hx : q.task r = .teardown (some w) x) : s.isReady w = true ∨
      (w = .unlock r ∧ ∃ wait i cls, .building wait i cls ∈ spots) ∨
      ∃ i, x = retire r i ∧ .holding i ∈ spots := by
  have ha := h.awaited q hq
  cases q with
  | calling wait =>
    obtain ⟨rfl, rfl⟩ := Task.teardown.inj hx
    obtain rfl : w = .unlock r := ha
    cases hl : (s.registration r).locked with
    | false => exact .inl (by simp [Store.isReady, hl])
    | true => exact .inr (.inl ⟨rfl, h.exists_building hl⟩)
  | retiring wait i =>
    obtain ⟨rfl, rfl⟩ := Task.teardown.inj hx
    obtain ⟨seen, rfl, -, hh | hlt⟩ := ha
    · exact .inr (.inr ⟨i, rfl, hh⟩)
    · exact .inl (by simpa [Store.isReady] using hlt)
  | ending wait i cls =>
    obtain ⟨rfl, rfl⟩ := Task.teardown.inj hx
    exact ha.elim
  | entering w => cases hx
  | locking w => cases hx
  | building w i cls => cases hx
  | holding i => cases hx

/-- Only what nobody holds starts to be destroyed. -/
theorem Sound.held {ts ts' : List Task} (h : Sound r s spots) (hts : ts = spots.map (Spot.task r))
    (hs : Step r s ts t ts') (hd : s.marks i .destroyed < t.marks i .destroyed) :
    .holding i ∉ ts := by
  intro hi
  rcases hs.holding hi with hi' | hacts
  · obtain ⟨spots', rfl, h'⟩ := hs.sound hts h
    obtain ⟨q, hq, hqi⟩ := List.mem_map.1 hi'
    obtain rfl := holding_of_task hqi
    have := h'.not_destroyed hq
    omega
  · have : t.marks i .destroyed = s.marks i .destroyed := by rw [Store.marks, hacts, Store.marks]
    omega

/-- Whatever turns requests and teardowns of a registration take, its instances are torn down in
order: what a request holds is not destroyed, what leaves the slot is, once, and no teardown is left
waiting for what has happened already. -/
theorem Reach.orderly {ts : List Task} (h : Reach r s ts) : Orderly r s ts := by
  obtain ⟨spots, rfl, hs⟩ := h.sound
  refine ⟨?_, ?_, ?_, ?_, ?_, ?_⟩
  · rw [countP_isActive]
    exact hs.active
  · intro i hi
    obtain ⟨ho, hf, -, -, -, -⟩ := hs.ledger.balanced i hi
    omega
  · intro i hi hn
    rcases hs.kept hi hn with hsh | ⟨wait, hw⟩ | hd
    · exact .inl hsh
    · exact .inr (.inl ⟨wait, List.mem_map.2 ⟨_, hw, rfl⟩, hs.destroys hw⟩)
    · exact .inr (.inr hd)
  · intro wait x hx
    obtain ⟨q, hq, hqx⟩ := List.mem_map.1 hx
    exact hs.tearing hq hqx
  · intro w x hx
    obtain ⟨q, hq, hqx⟩ := List.mem_map.1 hx
    rcases hs.waits hq hqx with hr | ⟨hw, wait, i, cls, hb⟩ | ⟨i, hi, hh⟩
    · exact .inl hr
    · exact .inr (.inl ⟨hw, wait, i, cls, List.mem_map.2 ⟨_, hb, rfl⟩⟩)
    · exact .inr (.inr ⟨i, hi, List.mem_map.2 ⟨_, hh, rfl⟩⟩)
  · intro t ts' hstep i _ hd
    exact hs.held rfl hstep hd

end

/-- One registration of a stateless class, not yet in use. -/
def sampleRegistration : Store where
  registrations := ⟨[{ name := "echo", cls := 0, instancing := .stateless }]⟩
  classes := ⟨[{ HandlerClass.idle with instancing := .stateless }]⟩

/-- A teardown that comes while a request holds the instance is parked until the request is over. -/
theorem reach_orderly_sample : ∃ s ts, Orderly 0 s ts ∧ .holding 0 ∈ ts ∧
    .teardown (some (.release 0 0)) (retire 0 0) ∈ ts ∧ s.isReady (.release 0 0) = false := by
  have unused : Unused 0 sampleRegistration :=
    ⟨by decide, rfl, rfl, fun r => by cases r <;> rfl, rfl, rfl, rfl, rfl⟩
  have unparked : ∀ s : Store, ∀ w ∈ (none : Option Signal), s.isReady w = true := by simp
  have entered := Reach.step (.start unused) (.request _ _)
  have looked := entered.step (.resumeRequest (obtainShared 0 >>= deliver 0) [] [] (unparked _))
  have built := looked.step (.resumeRequest (shareOrBuild 0 >>= deliver 0) [] [] (unparked _))
  have holds := built.step
    (.resumeRequest ((runInit 0 0 0 >>= place 0 0) >>= deliver 0) [] [] (unparked _))
  have called := holds.step (.teardown _ _)
  have took := called.step (.resumeTeardown (teardown 0) [] [.holding 0] (unparked _))
  have parked := took.step (.resumeTeardown (retire 0 0) [] [.holding 0] (unparked _))
  exact ⟨_, _, parked.orderly, .tail _ (.head _), .head _, rfl⟩

end Switchboard.Container
