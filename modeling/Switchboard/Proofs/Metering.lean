import Mathlib.Algebra.Group.Pi.Basic
import Mathlib.Algebra.Order.Ring.Int
import Mathlib.Tactic.Abel
import Switchboard.Proofs.Accounting
import Switchboard.Proofs.Ledger
import Switchboard.Proofs.Transitions

/-!
# What is metered, and against what

Every meter belongs to an account, and some accounts hold what the store has besides
against it: the instances that were built for a handler, or the runs of it that failed.
The balance of an account is what is metered less what is held against that, and
`Books s t d` says that from `s` to `t` the balances changed by `d`. The writes are
accounted for one by one, then the stages of a handler: within a request a new instance
stands in the books until it is initialized, and a failed run until it is metered.
-/

namespace Switchboard

/-- Counted by the endpoints of remote calls. -/
def Meter.isCall : Meter → Bool
  | called _ | callFailed _ | callTimed _ => true
  | _ => false

namespace Container

open Activity

/-- What an endpoint meters is calls. -/
def Remote.MetersCalls (m : Remote) : Prop :=
  ∀ l context call, ∃ new, (m.run l context call).1.readings = new ++ l.readings ∧ ∀ m ∈ new, m.isCall = true

/-- An endpoint that was built meters nothing else. -/
theorem metersCalls_call {ι : Type} (e : Rpc.Endpoint ι) (interface : String) (l : Rpc.Ledger) :
    Remote.MetersCalls ⟨interface, l, e.call⟩ := by
  intro l ctx c
  have hobtain : ∀ p, (e.obtain p l).1.readings = l.readings := fun p => by
    obtain ⟨hs, r, -, heq⟩ := Rpc.Endpoint.obtains_obtain e p l
    rw [heq]
    rfl
  have hrun : (e.run l ctx c).1.readings = l.readings := by
    have hr := Rpc.Endpoint.ran_run e l ctx c
    generalize e.run l ctx c = r at hr
    cases hr with
    | unknown => rfl
    | unbound => rfl
    | unobtained _ _ ho =>
      have hl := hobtain c.prototype
      rwa [ho] at hl
    | invoked _ _ ho =>
      have hl := hobtain c.prototype
      rwa [ho] at hl
  refine ⟨Rpc.metersOf e.descriptor.name (e.call l ctx c).2, ?_, ?_⟩
  · show (e.call l ctx c).1.readings = _
    rw [Rpc.Endpoint.call_eq]
    exact congrArg _ hrun
  · cases (e.call l ctx c).2 <;> simp [Rpc.metersOf, Meter.isCall]

/-- The instance of a run that failed. -/
def Act.lost? : Act → Option InstanceId
  | processed _ i (.error _) => some i
  | _ => none

/-- What meters of a name are kept on. -/
inductive Account where
  | dispatched | unhandled | building | construction | processing
  | moving (target : Lifecycle.State)
  /-- Of no meter: instances that are not initialized yet. -/
  | pending
  deriving DecidableEq

/-- The meters of a name that an account is about. -/
def Account.meters (name : String) : Account → List Meter
  | dispatched => [.dispatched name]
  | unhandled => [.unhandled name]
  | building => [.created name]
  | construction => [.failed name .construct, .failed name .init]
  | processing => [.failed name .process]
  | moving target => [.moved name target]
  | pending => []

/-- What is added to the accounts of the names. -/
abbrev Charge := Account → String → Int

/-- What one reading of a meter adds. -/
def bill (m : Meter) : Charge := fun a name => if m ∈ a.meters name then 1 else 0

/-- What a new instance of a handler leaves open until it is initialized. -/
def opened (handler : String) : Charge :=
  bill (.created handler) - fun a _ => if a = .pending then 1 else 0

/-- What a fault tells of. -/
def Fault.charge : Fault → Charge
  | construction name _ => bill (.failed name .init)
  | _ => 0

/-- What an outcome tells of. -/
def charge {α : Type} : Except Fault α → Charge
  | .error f => f.charge
  | .ok _ => 0

@[simp] theorem charge_ok {α : Type} (a : α) : charge (.ok a : Except Fault α) = 0 := rfl

@[simp] theorem charge_error {α : Type} (f : Fault) : charge (.error f : Except Fault α) = f.charge := rfl

/-- Construction and initialization are kept on one account. -/
theorem bill_construct (handler : String) : bill (.failed handler .construct) = bill (.failed handler .init) := by
  funext a name
  cases a <;> simp [bill, Account.meters]

namespace Store

/-- How high a meter stands. -/
def metered (s : Store) (m : Meter) : Nat := s.reading.count m

/-- The handlers that the instances were initialized for. -/
def labels (s : Store) : List (Option String) := s.instances.items.map fun a => a.config.map (·.handler)

/-- The instance was initialized for a handler of the name. -/
def Labelled (s : Store) (i : InstanceId) (handler : String) : Prop := s.labels[i]? = some (some handler)

/-- The instance is there and not initialized. -/
def Raw (s : Store) (i : InstanceId) : Prop := s.labels[i]? = some none

/-- How many instances were built for a handler, those not counted that are not initialized. -/
def builtFor (s : Store) (handler : String) : Nat := s.labels.count (some handler)

/-- How many instances are not initialized. -/
def pending (s : Store) : Nat := s.labels.count none

/-- How often a handler failed to process a request. -/
def lostFor (s : Store) (handler : String) : Nat :=
  s.acts.countP fun a => a.lost?.any fun i => s.labels[i]? = some (some handler)

/-- Everything metered but the moves. -/
def posted (s : Store) : List Meter := s.readings ++ s.remotes.items.flatMap fun r => r.ledger.readings

/-- What is held against the meters of an account. -/
def held (s : Store) : Account → String → Nat
  | .building, name => s.builtFor name
  | .processing, name => s.lostFor name
  | .pending, _ => s.pending
  | _, _ => 0

def balance (s : Store) : Charge := fun a name => s.posted.countP (· ∈ a.meters name) - s.held a name

/-- Snapshots and shared instances are of the handler whose registration has them, no instance ran
before it was initialized, and the endpoints meter calls. -/
structure Marked (s : Store) : Prop where
  cached : ∀ r snapshot, (s.registration r).cached = some snapshot →
    snapshot.config.handler = (s.registration r).name
  shared : ∀ r i, (s.registration r).shared = some i → s.Labelled i (s.registration r).name
  lost : ∀ a ∈ s.acts, ∀ i, a.lost? = some i → ∃ handler, s.Labelled i handler
  remotes : ∀ m ∈ s.remotes.items, m.MetersCalls

/-- From `s` to `t` the balances changed by `d`; names are the same, instances keep
their handler, and the moves that were made were counted. -/
structure Books (s t : Store) (d : Charge) : Prop where
  marked : t.Marked
  policies : ∀ r, (t.registration r).policy = (s.registration r).policy
  even : s.board.Even t.board
  labels : ∀ i handler, s.Labelled i handler → t.Labelled i handler
  balance : t.balance = s.balance + d

variable {s t u : Store} {d d' : Charge} {r : RegistrationId} {i : InstanceId} {a : Act} {handler : String}

theorem Books.refl (h : s.Marked) : Books s s 0 := ⟨h, fun _ => rfl, .refl _, fun _ _ => id, (add_zero _).symm⟩

theorem Books.trans (h : Books s t d) (k : Books t u d') : Books s u (d + d') where
  marked := k.marked
  policies r := (k.policies r).trans (h.policies r)
  even := h.even.trans k.even
  labels i n := k.labels i n ∘ h.labels i n
  balance := by rw [k.balance, h.balance, add_assoc]

theorem Books.congr (h : Books s t d) (hd : d = d') : Books s t d' := hd ▸ h

theorem Books.then (h : Books s t d) (k : Books t u 0) : Books s u d := (h.trans k).congr (add_zero d)

theorem Books.name_eq (h : Books s t d) (r : RegistrationId) :
    (t.registration r).name = (s.registration r).name := congrArg Prod.fst (h.policies r)

theorem Books.sharesInstance_eq (h : Books s t d) (r : RegistrationId) :
    (t.registration r).instancing.sharesInstance = (s.registration r).instancing.sharesInstance :=
  congrArg (fun p => p.2.2.sharesInstance) (h.policies r)

theorem Books.domain_eq (h : Books s t d) (c : ComponentId) : t.name c = s.name c := by
  rw [name, Lifecycle.Board.name_eq, h.even.later.names, ← Lifecycle.Board.name_eq, name]

/-! ## Single writes -/

/-- What changes of the balances where instances get another label. -/
def relabelled (s t : Store) : Charge
  | .building, name => s.builtFor name - t.builtFor name
  | .pending, _ => s.pending - t.pending
  | _, _ => 0

/-- Instances may be added and initialized, and everything else is as it was. -/
theorem books_relabelled (h : s.Marked) (hr : t.registrations = s.registrations) (ha : t.acts = s.acts)
    (hm : t.remotes = s.remotes) (hd : t.readings = s.readings) (hb : s.board.Even t.board)
    (hl : ∀ i handler, s.Labelled i handler → t.Labelled i handler) : Books s t (relabelled s t) := by
  have hreg : ∀ r, t.registration r = s.registration r := fun r => by rw [registration, hr, registration]
  have hposted : t.posted = s.posted := by rw [posted, hd, hm, posted]
  -- the runs that failed are of instances that have their label already
  have hlost : ∀ name, t.lostFor name = s.lostFor name := by
    intro name
    rw [lostFor, ha]
    refine List.countP_congr fun act hact => ?_
    cases hi : act.lost? with
    | none => simp
    | some i =>
      obtain ⟨n, hs⟩ := h.lost act hact i hi
      have ht : t.labels[i]? = some (some n) := hl i n hs
      have hs : s.labels[i]? = some (some n) := hs
      rw [Option.any_some, Option.any_some, ht, hs]
  refine ⟨⟨fun r => ?_, fun r => ?_, ?_, ?_⟩, fun r => by rw [hreg], hb, hl, ?_⟩
  · rw [hreg]
    exact h.cached r
  · rw [hreg]
    exact fun i hs => hl i _ (h.shared r i hs)
  · rw [ha]
    exact fun a hm i hi => (h.lost a hm i hi).imp fun _ => hl i _
  · rw [hm]
    exact h.remotes
  · funext a name
    rw [Pi.add_apply]
    cases a <;> simp [balance, held, hposted, hlost, relabelled]

theorem books_of_labels_eq (h : s.Marked) (hr : t.registrations = s.registrations) (ha : t.acts = s.acts)
    (hm : t.remotes = s.remotes) (hd : t.readings = s.readings) (hb : s.board.Even t.board)
    (hl : t.labels = s.labels) : Books s t 0 := by
  refine (books_relabelled h hr ha hm hd hb fun i n hi => by rwa [Labelled, hl]).congr ?_
  funext a name
  cases a <;> simp [relabelled, builtFor, Store.pending, hl]

/-- Nothing is written that the books are about. -/
theorem books_of_eq (h : s.Marked) (hr : t.registrations = s.registrations) (hi : t.instances = s.instances)
    (ha : t.acts = s.acts) (hm : t.remotes = s.remotes) (hd : t.readings = s.readings)
    (hb : s.board.Even t.board) : Books s t 0 :=
  books_of_labels_eq h hr ha hm hd hb (by rw [labels, hi, labels])

theorem books_measure (h : s.Marked) (m : Meter) : Books s (s.measure m) (bill m) := by
  refine ⟨⟨h.cached, h.shared, h.lost, h.remotes⟩, fun _ => rfl, .refl _, fun _ _ => id, ?_⟩
  funext a name
  have hheld : (s.measure m).held a name = s.held a name := rfl
  have hposted : (s.measure m).posted = m :: s.posted := rfl
  rw [Pi.add_apply, Pi.add_apply, balance, hheld, hposted, List.countP_cons, bill, balance]
  split <;> simp_all
  omega

theorem lostFor_note (s : Store) (a : Act) (name : String) : (s.note a).lostFor name =
    s.lostFor name + if a.lost?.any (fun i => s.labels[i]? = some (some name)) = true then 1 else 0 :=
  List.countP_cons

/-- What is noted adds to the failed runs only. -/
theorem balance_note (s : Store) (act : Act) (a : Account) (name : String) :
    (s.note act).balance a name = s.balance a name -
      if a = .processing ∧ act.lost?.any (fun i => s.labels[i]? = some (some name)) = true then 1 else 0 := by
  cases a with
  | processing =>
    have hposted : (s.note act).posted = s.posted := rfl
    simp only [balance, held, hposted, lostFor_note, true_and, Nat.cast_add, Nat.cast_ite, sub_sub]
    rfl
  | _ => exact (Int.sub_zero _).symm

theorem books_note (h : s.Marked) (ha : a.lost? = none) : Books s (s.note a) 0 := by
  refine ⟨⟨h.cached, h.shared, ?_, h.remotes⟩, fun _ => rfl, .refl _, fun _ _ => id, ?_⟩
  · intro b hb i hi
    rcases List.mem_cons.1 hb with rfl | hb
    · rw [ha] at hi
      cases hi
    · exact h.lost b hb i hi
  · funext b name
    simp [balance_note, ha]

/-- A failed run is on record from now on. -/
theorem books_note_lost (h : s.Marked) (ha : a.lost? = some i) (hi : s.Labelled i handler) :
    Books s (s.note a) (-bill (.failed handler .process)) := by
  refine ⟨⟨h.cached, h.shared, ?_, h.remotes⟩, fun _ => rfl, .refl _, fun _ _ => id, ?_⟩
  · intro b hb j hj
    rcases List.mem_cons.1 hb with rfl | hb
    · exact ⟨handler, Option.some.inj (ha.symm.trans hj) ▸ hi⟩
    · exact h.lost b hb j hj
  · funext b name
    have hi : s.labels[i]? = some (some handler) := hi
    rw [balance_note, ha, Option.any_some, hi, Pi.add_apply, Pi.neg_apply, sub_eq_add_neg]
    cases b <;> simp [bill, Account.meters]

/-! ### Instances -/

theorem labels_updateInstance {f : Instance → Instance} {g : Option String → Option String}
    (hf : ∀ a, (f a).config.map (·.handler) = g (a.config.map (·.handler))) :
    (s.updateInstance i f).labels = s.labels.modify i g := by
  refine List.ext_getElem? fun j => ?_
  simp only [labels, updateInstance, Roster.update, List.getElem?_map, List.getElem?_modify]
  cases s.instances.items[j]? with
  | none => rfl
  | some a =>
    by_cases hj : i = j
    · simpa [hj] using hf a
    · simp [hj]

/-- What is written of an instance leaves it with its configuration. -/
theorem books_updateInstance (h : s.Marked) (i : InstanceId) {f : Instance → Instance}
    (hf : ∀ a, (f a).config = a.config) : Books s (s.updateInstance i f) 0 := by
  refine books_of_labels_eq h rfl rfl rfl rfl (.refl _) ?_
  exact (labels_updateInstance (g := id) fun a => by rw [hf, id]).trans (List.modify_id ..)

/-- A new instance is not initialized yet. -/
theorem books_build (h : s.Marked) {a : Instance} (ha : a.config = none) :
    Books s { s with instances := s.instances.add a } (fun a _ => if a = .pending then -1 else 0) ∧
      Raw { s with instances := s.instances.add a } s.instances.size := by
  have hlabels : labels { s with instances := s.instances.add a } = s.labels ++ [none] := by
    simp [labels, Roster.add, ha]
  refine ⟨Books.congr (books_relabelled h rfl rfl rfl rfl (.refl _) fun j n hj => ?_) ?_, ?_⟩
  · rw [Labelled, hlabels, List.getElem?_append_left (List.getElem?_eq_some_iff.1 hj).1]
    exact hj
  · funext b name
    cases b <;> simp [relabelled, builtFor, Store.pending, hlabels]
  · have hsize : s.instances.size = s.labels.length := (List.length_map ..).symm
    rw [Raw, hlabels, hsize, List.getElem?_concat_length]

/-- An instance that was built is initialized for a handler. -/
theorem books_label (h : s.Marked) (hi : s.Raw i) (config : HandlerConfig) :
    Books s (s.updateInstance i fun a => { a with config := some config }) (-opened config.handler) ∧
      (s.updateInstance i fun a => { a with config := some config }).Labelled i config.handler := by
  have hi : s.labels[i]? = some none := hi
  have hlabels : (s.updateInstance i fun a => { a with config := some config }).labels =
      s.labels.modify i fun _ => some config.handler := labels_updateInstance fun _ => rfl
  have hcount : ∀ label,
      (s.labels.modify i fun _ => some config.handler).count label + (if none = label then 1 else 0) =
        s.labels.count label + if some config.handler = label then 1 else 0 := fun label => by
    simpa [List.count] using countP_modify (· == label) (fun _ => some config.handler) s.labels hi
  refine ⟨Books.congr (books_relabelled h rfl rfl rfl rfl (.refl _) fun j n hj => ?_) ?_, ?_⟩
  · have hj : s.labels[j]? = some (some n) := hj
    have hne : i ≠ j := by
      rintro rfl
      rw [hi] at hj
      cases hj
    rw [Labelled, hlabels, List.getElem?_modify]
    simpa [hne] using hj
  · funext b name
    have hbuilt := hcount (some name)
    have hpending := hcount none
    simp at hbuilt hpending
    cases b with
    | building =>
      simp only [relabelled, builtFor, hlabels, hbuilt, opened]
      by_cases hn : config.handler = name <;> simp [hn, bill, Account.meters]
    | pending =>
      simp only [relabelled, Store.pending, hlabels, ← hpending, opened]
      simp [bill, Account.meters]
    | _ => simp [relabelled, opened, bill, Account.meters]
  · rw [Labelled, hlabels, List.getElem?_modify, hi]
    simp

/-! ### Registrations -/

theorem books_updateRegistration (h : s.Marked) {f : Registration → Registration}
    (hp : (f (s.registration r)).policy = (s.registration r).policy)
    (hc : ∀ snapshot, (f (s.registration r)).cached = some snapshot →
      snapshot.config.handler = (s.registration r).name)
    (hs : ∀ i, (f (s.registration r)).shared = some i → s.Labelled i (s.registration r).name) :
    Books s (s.updateRegistration r f) 0 := by
  have hname : (f (s.registration r)).name = (s.registration r).name := congrArg Prod.fst hp
  have hcases : ∀ r', (s.updateRegistration r f).registration r' = s.registration r' ∨
      r = r' ∧ (s.updateRegistration r f).registration r' = f (s.registration r') := fun r' => by
    rw [registration_updateRegistration]
    split
    next hr => exact .inr ⟨hr.1, rfl⟩
    next => exact .inl rfl
  refine ⟨⟨fun r' => ?_, fun r' => ?_, h.lost, h.remotes⟩, fun r' => ?_, .refl _, fun _ _ => id,
    (add_zero _).symm⟩
  · rcases hcases r' with hr | ⟨rfl, hr⟩
    · rw [hr]
      exact h.cached r'
    · rw [hr, hname]
      exact hc
  · rcases hcases r' with hr | ⟨rfl, hr⟩
    · rw [hr]
      exact h.shared r'
    · rw [hr, hname]
      exact hs
  · rcases hcases r' with hr | ⟨rfl, hr⟩
    · rw [hr]
    · rw [hr, hp]

/-- What is written of a registration leaves its slot and its snapshot alone. -/
theorem books_useRegistration (h : s.Marked) (r : RegistrationId) {f : Registration → Registration}
    (hp : ∀ g, (f g).policy = g.policy) (hc : ∀ g, (f g).cached = g.cached) (hs : ∀ g, (f g).shared = g.shared) :
    Books s (s.updateRegistration r f) 0 :=
  books_updateRegistration h (hp _) (fun snapshot hk => h.cached r snapshot ((hc _).symm.trans hk))
    fun i hi => h.shared r i ((hs _).symm.trans hi)

theorem books_setLocked (h : s.Marked) (r : RegistrationId) (locked : Bool) : Books s (s.setLocked r locked) 0 :=
  books_useRegistration h r (fun _ => rfl) (fun _ => rfl) fun _ => rfl

theorem books_releaseSlot (h : s.Marked) (r : RegistrationId) : Books s (s.releaseSlot r) 0 := by
  refine books_useRegistration h r (fun g => ?_) (fun g => ?_) fun g => g.shared_released
  · show g.released.charter.policy = g.policy
    rw [g.charter_released]
    rfl
  · unfold Registration.released
    split <;> rfl

theorem books_drop (h : s.Marked) (i : InstanceId) : Books s (s.drop i) 0 := books_updateInstance h i fun _ => rfl

theorem books_giveBack (h : s.Marked) (r : RegistrationId) (i : InstanceId) : Books s (s.giveBack r i) 0 :=
  have hdrop := books_drop h i
  hdrop.then (books_releaseSlot hdrop.marked r)

theorem books_publish (h : s.Marked) (hi : s.Labelled i (s.registration r).name) : Books s (s.publish r i) 0 := by
  have hset : Books s (s.updateRegistration r fun g => { g with shared := some i, locked := false }) 0 :=
    books_updateRegistration h rfl (h.cached r) fun j hj => Option.some.inj hj ▸ hi
  exact hset.then (books_updateInstance hset.marked i fun _ => rfl)

theorem books_share (h : s.Marked) (r : RegistrationId) :
    Books s (s.share r).1 0 ∧ ∀ i, (s.share r).2 = some i → (s.share r).1.Labelled i (s.registration r).name := by
  unfold Store.share
  split
  next j hj =>
    have hhold : Books s (s.hold j) 0 := books_updateInstance h j fun _ => rfl
    exact ⟨hhold, fun i hi => Option.some.inj hi ▸ hhold.labels j _ (h.shared r j hj)⟩
  next => exact ⟨.refl h, fun i hi => nomatch hi⟩

theorem books_takeShared (h : s.Marked) (r : RegistrationId) : Books s (s.takeShared r).1 0 :=
  books_updateRegistration h rfl (h.cached r) fun _ hi => nomatch hi

/-- What a handler is initialized with is of its registration. -/
theorem books_configure (h : s.Marked) (r : RegistrationId) :
    Books s (s.configure r).1 0 ∧ (s.configure r).2.handler = (s.registration r).name := by
  have hconfig : (s.registration r).config.2.config.handler = (s.registration r).name ∧
      (∀ snapshot, (s.registration r).config.1.cached = some snapshot →
        snapshot.config.handler = (s.registration r).name) := by
    cases hc : (s.registration r).cached with
    | some snapshot => exact Registration.config_of_some hc ▸ ⟨h.cached r snapshot hc, h.cached r⟩
    | none => exact Registration.config_of_none hc ▸ ⟨rfl, fun snapshot hs => Option.some.inj hs ▸ rfl⟩
  refine ⟨books_updateRegistration h ?_ hconfig.2 fun i hi => ?_, hconfig.1⟩
  · show (s.registration r).config.1.charter.policy = (s.registration r).policy
    rw [(s.registration r).charter_config]
    rfl
  · exact h.shared r i ((s.registration r).shared_config.symm.trans hi)

/-! ### Remote calls -/

/-- Changing one item does not change a count over what the items have, if it does not for that one. -/
theorem countP_flatMap_modify {α β : Type} (p : β → Bool) (f : α → α) (g : α → List β) (l : List α)
    {n : Nat} {a : α} (h : l[n]? = some a) (hg : (g (f a)).countP p = (g a).countP p) :
    ((l.modify n f).flatMap g).countP p = (l.flatMap g).countP p := by
  induction l generalizing n with
  | nil => simp at h
  | cons b l ih =>
    cases n with
    | zero =>
      simp only [List.getElem?_cons_zero, Option.some.injEq] at h
      subst h
      simp [hg]
    | succ n =>
      simp only [List.getElem?_cons_succ] at h
      simp [ih h]

theorem books_forward (h : s.Marked) (endpoint : Nat) (request response : Payload) :
    Books s (s.forward endpoint request response).1 0 := by
  unfold Store.forward
  split
  · split
    · exact .refl h
    · rename_i call context _ _ m hm
      obtain ⟨new, hnew, hcalls⟩ := h.remotes m (List.mem_of_getElem? hm) m.ledger context call
      refine ⟨⟨h.cached, h.shared, h.lost, fun x hx => ?_⟩, fun _ => rfl, .refl _, fun _ _ => id, ?_⟩
      · obtain ⟨j, hj⟩ := List.getElem?_of_mem hx
        simp only [Roster.update, List.getElem?_modify, Option.map_eq_map, Option.map_eq_some_iff] at hj
        obtain ⟨y, hy, rfl⟩ := hj
        have hcall := h.remotes y (List.mem_of_getElem? hy)
        split
        · exact hcall
        · exact hcall
      · -- what is new is on no account
        have hnone : ∀ a name, new.countP (· ∈ Account.meters name a) = 0 := fun a name => by
          refine List.countP_eq_zero.2 fun x hx hmem => ?_
          have hcall := hcalls x hx
          cases a <;> simp [Account.meters] at hmem <;> rcases hmem with rfl | rfl <;> cases hcall
        funext a name
        have hlist := countP_flatMap_modify (· ∈ a.meters name)
          (fun t => { t with ledger := (m.run m.ledger context call).1 }) (fun m => m.ledger.readings)
          s.remotes.items hm (by simp [hnew, hnone])
        simp only [balance, posted, Roster.update, List.countP_append, hlist, Pi.add_apply, Pi.zero_apply,
          add_zero]
        rfl
  · exact .refl h
  · exact .refl h

theorem books_perform (h : s.Marked) (cls : ClassId) (i : InstanceId) (request response : Payload) :
    Books s (s.perform cls i request response).1 0 := by
  unfold Store.perform
  split
  · exact .refl h
  · exact books_forward h _ request response

end Store

end Container
end Switchboard
