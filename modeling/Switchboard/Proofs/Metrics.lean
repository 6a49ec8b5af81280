import Mathlib.Algebra.BigOperators.Group.List.Basic
import Switchboard.Container.Cascade
import Switchboard.Proofs.Charges
import Switchboard.Proofs.PhaseRuns

/-!
# What the meters say

A phase keeps the message of a fault that it ends over, not the fault. `phaseTelling`
is the same phase that tells the faults of its preloading besides. From a store where
everything is `Marked`, dispatches and phases of any components may be run one after the
other (`Rounds`), with whatever classes, handlers and hooks do: in the end every meter of
the container has grown by just what it is about (`Tallies`).
-/

namespace Switchboard.Container

open Activity
open Lifecycle (Board HasBoard Phase conclude needsInit onBoard runPhase runSingle)
open Store (Books)

/-! ## Phases that tell their faults -/

/-- An outcome, with the faults of the preloading on the way. -/
abbrev Told (ε : Type) := Except ε Unit × List Fault

def preloadAllTelling : List RegistrationId → Work (Told String)
  | [] => return (.ok (), [])
  | r :: rs => do
    if ((← .get).registration r).loadOnStartup then
      match ← preload r with
      | .error f => return (.error f.message, [f])
      | .ok () => preloadAllTelling rs
    else preloadAllTelling rs

def contextHookTelling (c : ComponentId) : Phase → Work (Told String)
  | .start => do preloadAllTelling ((← .get).handlers c)
  | p => (·, []) <$> contextHook c p

def cascadeTelling (run : ComponentId → Work (Told Lifecycle.Fault)) : List ComponentId → Work (Told String)
  | [] => return (.ok (), [])
  | c :: cs => do
    match ← run c with
    | (.error f, told) => return (.error f.message, told)
    | (.ok (), told) => Prod.map id (told ++ ·) <$> cascadeTelling run cs

def runSingleTelling (hook : Work (Told String)) (c : ComponentId) (p : Phase) : Work (Told Lifecycle.Fault) := do
  match ← onBoard fun b => b.begin c p with
  | .error f => return (.error f, [])
  | .ok false => return (.ok (), [])
  | .ok true =>
    let (outcome, told) ← hook
    (·, told) <$> conclude c p outcome

def runPhaseTelling (hook : Phase → Work (Told String)) (c : ComponentId) (p : Phase) :
    Work (Told Lifecycle.Fault) := do
  if needsInit p (← onBoard fun b => (b, b.state c)) then
    match ← runSingleTelling (hook .init) c .init with
    | (.error f, told) => return (.error f, told)
    | (.ok (), told) => Prod.map id (told ++ ·) <$> runSingleTelling (hook p) c p
  else runSingleTelling (hook p) c p

def hookAtTelling : Nat → ComponentId → Phase → Work (Told String)
  | 0, c, p => contextHookTelling c p
  | n + 1, c, p => do cascadeTelling (fun d => runPhaseTelling (hookAtTelling n d) d p) ((← .get).childIds c)

def phaseTelling (c : ComponentId) (p : Phase) : Work (Told Lifecycle.Fault) := do
  runPhaseTelling (hookAtTelling ((← .get).component c).kind.height c) c p

/-- The telling activity does what the other does. -/
abbrev Tells {ε : Type} (x : Work (Told ε)) (y : Work (Except ε Unit)) : Prop := Prod.fst <$> x = y

/-- Every run of the one is a run of the other, with something told. -/
theorem Tells.runs_iff {ε : Type} {x : Work (Told ε)} {y : Work (Except ε Unit)} (h : Tells x y)
    {rely : Store → Store → Prop} {s t : Store} {own : List (Store × Store)} {out : Except ε Unit} :
    Runs rely y s own out t ↔ ∃ told, Runs rely x s own (out, told) t := by
  rw [← h, runs_map]
  exact ⟨fun ⟨⟨_, told⟩, hr, rfl⟩ => ⟨told, hr⟩, fun ⟨told, hr⟩ => ⟨_, hr, rfl⟩⟩

theorem tells_preloadAll (rs : List RegistrationId) : Tells (preloadAllTelling rs) (preloadAll rs) := by
  induction rs with
  | nil => exact map_pure _ _
  | cons r rs ih =>
    rw [Tells, preloadAllTelling, preloadAll, map_bind]
    congr 1
    funext s
    split
    · rw [map_bind]
      congr 1
      funext out
      cases out with
      | error f => exact map_pure _ _
      | ok => exact ih
    · exact ih

theorem tells_contextHook (c : ComponentId) (p : Phase) : Tells (contextHookTelling c p) (contextHook c p) := by
  cases p with
  | start =>
    rw [Tells, contextHookTelling, contextHook, map_bind]
    congr 1
    funext s
    exact tells_preloadAll _
  | _ =>
    rw [Tells, contextHookTelling, ← comp_map]
    · exact id_map _
    · nofun

theorem tells_cascade {run : ComponentId → Work (Told Lifecycle.Fault)}
    {run' : ComponentId → Work (Except Lifecycle.Fault Unit)} (h : ∀ c, Tells (run c) (run' c))
    (cs : List ComponentId) : Tells (cascadeTelling run cs) (cascade run' cs) := by
  induction cs with
  | nil => exact map_pure _ _
  | cons c cs ih =>
    rw [Tells, cascadeTelling, cascade, map_bind, ← h c, bind_map_left]
    congr 1
    funext out
    rcases out with ⟨f | _, told⟩
    · exact map_pure _ _
    · exact (comp_map _ _ _).symm.trans ih

theorem tells_runSingle {hook : Work (Told String)} {hook' : PhaseHook} (h : Tells hook hook')
    (c : ComponentId) (p : Phase) : Tells (runSingleTelling hook c p) (runSingle hook' c p) := by
  rw [Tells, runSingleTelling, runSingle, map_bind]
  congr 1
  funext begun
  rcases begun with f | (_ | _)
  · exact map_pure _ _
  · exact map_pure _ _
  · dsimp only
    rw [map_bind, ← h, bind_map_left]
    congr 1
    funext out
    exact (comp_map _ _ _).symm.trans (id_map _)

theorem tells_runPhase {hook : Phase → Work (Told String)} {hook' : Phase → PhaseHook}
    (h : ∀ q, Tells (hook q) (hook' q)) (c : ComponentId) (p : Phase) :
    Tells (runPhaseTelling hook c p) (runPhase hook' c p) := by
  rw [Tells, runPhaseTelling, runPhase, map_bind]
  congr 1
  funext st
  split
  · rw [map_bind, ← tells_runSingle (h .init), bind_map_left]
    congr 1
    funext out
    rcases out with ⟨f | _, told⟩
    · exact map_pure _ _
    · exact (comp_map _ _ _).symm.trans (tells_runSingle (h p) c p)
  · exact tells_runSingle (h p) c p

theorem tells_hookAt (n : Nat) (c : ComponentId) (p : Phase) : Tells (hookAtTelling n c p) (hookAt n c p) := by
  induction n generalizing c p with
  | zero => exact tells_contextHook c p
  | succ n ih =>
    rw [Tells, hookAtTelling, hookAt, map_bind]
    congr 1
    funext s
    exact tells_cascade (fun d => tells_runPhase (fun q => ih d q) d p) _

/-- A phase is run the same whether it is told or not. -/
theorem tells_phase (c : ComponentId) (p : Phase) : Tells (phaseTelling c p) (phase c p) := by
  rw [Tells, phaseTelling, phase, map_bind]
  congr 1
  funext s
  exact tells_runPhase (fun q => tells_hookAt _ c q) c p

/-! ## What a phase adds to the books -/

def faultsCharge (fs : List Fault) : Charge := (fs.map Fault.charge).sum

@[simp] theorem faultsCharge_nil : faultsCharge [] = 0 := rfl

@[simp] theorem faultsCharge_singleton (f : Fault) : faultsCharge [f] = f.charge := List.sum_singleton

@[simp] theorem faultsCharge_append (fs gs : List Fault) :
    faultsCharge (fs ++ gs) = faultsCharge fs + faultsCharge gs := by
  simp [faultsCharge]

section

variable {α β ε : Type} {c : ComponentId} {p : Phase}

/-- The faults that are told are all that the books show. -/
abbrev Discloses (x : Work (Told ε)) : Prop := Bills x fun out => faultsCharge out.2

theorem Bills.map {x : Work α} {f : α → β} {k : β → Charge} (hx : Bills x fun a => k (f a)) :
    Bills (f <$> x) k :=
  fun s hs => ensures_map.2 (hx s hs)

/-- What was told before is told again, with what follows. -/
theorem Discloses.after {x : Work (Told ε)} (hx : Discloses x) (told : List Fault) :
    Bills (Prod.map id (told ++ ·) <$> x) fun out => faultsCharge out.2 - faultsCharge told := by
  refine Bills.map (hx.congr fun out => ?_)
  rw [Prod.map_snd, faultsCharge_append, add_sub_cancel_left]

theorem bills_onBoard {f : Board → Board × α} (hf : ∀ b : Board, b.Even (f b).1) :
    Bills (onBoard f) fun _ => 0 :=
  bills_act fun s hs => Store.books_of_eq hs rfl rfl rfl rfl rfl (hf s.board)

theorem bills_conclude (c : ComponentId) (p : Phase) (outcome : Except String Unit) :
    Bills (conclude c p outcome) fun _ => 0 := by
  cases outcome with
  | error cause =>
    rw [conclude]
    exact bills_onBoard fun b => b.even_fail c
  | ok =>
    rw [conclude]
    exact bills_onBoard fun b => b.even_request c p.settled

theorem discloses_preloadAll (rs : List RegistrationId) : Discloses (preloadAllTelling rs) := by
  induction rs with
  | nil => exact bills_pure rfl
  | cons r rs ih =>
    refine bills_get.free_bind fun s => ?_
    split
    · refine (bills_preload r).bind fun out => ?_
      cases out with
      | error f => exact bills_pure (by simp)
      | ok => exact ih.congr fun _ => (sub_zero _).symm
    · exact ih

theorem bills_takeRetired (c : ComponentId) : Bills (act (·.takeRetired c)) fun _ => 0 :=
  bills_act fun _ hs => Store.books_of_eq hs rfl rfl rfl rfl rfl (.refl _)

theorem discloses_contextHook (c : ComponentId) (p : Phase) : Discloses (contextHookTelling c p) := by
  cases p with
  | init => exact Bills.map (bills_pure rfl)
  | start => exact bills_get.free_bind fun s => discloses_preloadAll _
  | stop =>
    refine Bills.map ((bills_takeRetired c).free_bind fun retired => ?_)
    refine (bills_teardownAll retired).free_bind fun _ => bills_get.free_bind fun s => ?_
    exact (bills_teardownAll _).free_bind fun _ => bills_pure rfl
  | destroy =>
    have htake : Bills (act (·.takeHandlers c)) fun _ => 0 :=
      bills_act fun _ hs => Store.books_of_eq hs rfl rfl rfl rfl rfl (.refl _)
    refine Bills.map (htake.free_bind fun handlers => (bills_takeRetired c).free_bind fun retired => ?_)
    refine (bills_teardownAll retired).free_bind fun _ => (bills_teardownAll handlers).free_bind fun _ => ?_
    refine Bills.free_bind (bills_modify fun _ hs => ?_) fun _ => bills_pure rfl
    exact Store.books_of_eq hs rfl rfl rfl rfl rfl (.refl _)

theorem discloses_cascade {run : ComponentId → Work (Told Lifecycle.Fault)} (h : ∀ c, Discloses (run c))
    (cs : List ComponentId) : Discloses (cascadeTelling run cs) := by
  induction cs with
  | nil => exact bills_pure rfl
  | cons c cs ih =>
    refine (h c).bind fun out => ?_
    split
    · exact bills_pure (sub_self _)
    · exact ih.after _

theorem discloses_runSingle {hook : Work (Told String)} (h : Discloses hook) :
    Discloses (runSingleTelling hook c p) := by
  refine Bills.free_bind (bills_onBoard fun b => b.even_begin c p) fun begun => ?_
  rcases begun with f | (_ | _)
  · exact bills_pure rfl
  · exact bills_pure rfl
  · refine h.bind fun out => Bills.map ((bills_conclude c p out.1).congr fun _ => ?_)
    exact (sub_self _).symm

theorem discloses_runPhase {hook : Phase → Work (Told String)} (h : ∀ q, Discloses (hook q)) :
    Discloses (runPhaseTelling hook c p) := by
  refine Bills.free_bind (bills_onBoard fun b => .refl b) fun st => ?_
  split
  · refine (discloses_runSingle (h .init)).bind fun out => ?_
    split
    · exact bills_pure (sub_self _)
    · exact (discloses_runSingle (h p)).after _
  · exact discloses_runSingle (h p)

theorem discloses_hookAt (n : Nat) (c : ComponentId) (p : Phase) : Discloses (hookAtTelling n c p) := by
  induction n generalizing c p with
  | zero => exact discloses_contextHook c p
  | succ n ih =>
    exact bills_get.free_bind fun s => discloses_cascade (fun d => discloses_runPhase fun q => ih d q) _

theorem discloses_phase (c : ComponentId) (p : Phase) : Discloses (phaseTelling c p) :=
  bills_get.free_bind fun _ => discloses_runPhase fun q => discloses_hookAt _ c q

end

/-! ## Rounds -/

/-- What a dispatch or a phase came to. -/
inductive Report where
  | dispatch (domain : String) (out : Handled)
  | phase (faults : List Fault)

namespace Report

/-- The faults of dispatches and of the preloading. -/
def faults : Report → List Fault
  | dispatch _ (_, .error f) => [f]
  | dispatch _ (_, .ok ()) => []
  | phase fs => fs

def isDispatch (domain : String) : Report → Bool
  | dispatch n _ => n = domain
  | phase _ => false

/-- A dispatch that came back without a fault, the event as unhandled as before. -/
def isUnclaimed (domain : String) : Report → Bool
  | dispatch n out => n = domain && Container.isUnclaimed out
  | phase _ => false

def charge : Report → Charge
  | dispatch domain out => dispatchCharge domain out
  | phase fs => faultsCharge fs

end Report

def Fault.isConstructionOf (name : String) : Fault → Bool
  | construction h _ => h = name
  | _ => false

/-- Dispatches of events that are not handled yet and phases of components, one after the other, while
gates may be opened. -/
inductive Rounds : Store → List Report → Store → Prop where
  | done (s : Store) : Rounds s [] s
  | dispatch {s t u : Store} {own : List (Store × Store)} {e : RequestEvent} {out : Handled} {reports : List Report}
      (d : ComponentId) : e.handled = false → Runs OpensGates (dispatchDomain d e) s own out t →
      Rounds t reports u → Rounds s (.dispatch (s.name d) out :: reports) u
  | phase {s t u : Store} {own : List (Store × Store)} {out : Told Lifecycle.Fault} {reports : List Report}
      (c : ComponentId) (p : Phase) : Runs OpensGates (phaseTelling c p) s own out t →
      Rounds t reports u → Rounds s (.phase out.2 :: reports) u
  | aside {s t u : Store} {reports : List Report} : OpensGates s t → Rounds t reports u → Rounds s reports u

section

variable {s t : Store} {reports : List Report}

theorem Rounds.books (h : Rounds s reports t) (hs : s.Marked) : Books s t (reports.map Report.charge).sum := by
  induction h with
  | done s => exact .refl hs
  | dispatch d he hrun _ ih =>
    have hstep := dispatchDomain_books hs d he _ _ _ hrun
    exact hstep.trans (ih hstep.marked)
  | phase c p hrun _ ih =>
    have hstep := discloses_phase c p _ hs _ _ _ hrun
    exact hstep.trans (ih hstep.marked)
  | aside hg _ ih =>
    have hstep := Store.books_opensGates hs hg
    exact (hstep.trans (ih hstep.marked)).congr (zero_add _)

end

/-! ### Account by account -/

theorem Fault.charge_apply (f : Fault) (a : Account) (name : String) :
    f.charge a name = if a = .construction ∧ f.isConstructionOf name = true then 1 else 0 := by
  cases f with
  | construction h cause => cases a <;> simp [Fault.charge, Fault.isConstructionOf, bill, Account.meters]
  | _ => simp [Fault.charge, Fault.isConstructionOf]

theorem faultsCharge_apply (fs : List Fault) (a : Account) (name : String) :
    faultsCharge fs a name = if a = .construction then (fs.countP (·.isConstructionOf name) : Int) else 0 := by
  induction fs with
  | nil => simp
  | cons f fs ih =>
    have hsum : faultsCharge (f :: fs) a name = f.charge a name + faultsCharge fs a name := rfl
    rw [hsum, ih, f.charge_apply, List.countP_cons]
    by_cases ha : a = .construction <;> simp [ha, add_comm]

/-- What a list of reports comes to, account by account. -/
def tally (reports : List Report) (name : String) : Account → Nat
  | .dispatched => reports.countP (·.isDispatch name)
  | .unhandled => reports.countP (·.isUnclaimed name)
  | .construction => (reports.flatMap Report.faults).countP (·.isConstructionOf name)
  | _ => 0

/-- A report adds what it is about itself, and its faults. -/
theorem Report.charge_apply (r : Report) (name : String) (a : Account) : r.charge a name =
    (if a = .dispatched ∧ r.isDispatch name = true then 1 else 0) +
      (if a = .unhandled ∧ r.isUnclaimed name = true then 1 else 0) + faultsCharge r.faults a name := by
  cases r with
  | phase fs => simp [charge, isDispatch, isUnclaimed, faults]
  | dispatch domain out =>
    have hfaults : Container.charge out.2 = faultsCharge (faults (.dispatch domain out)) := by
      rcases out with ⟨e, f | _⟩ <;> simp [faults]
    have hunhandled : (if Container.isUnclaimed out then bill (.unhandled domain) else 0 : Charge) a name =
        if a = .unhandled ∧ isUnclaimed name (.dispatch domain out) = true then 1 else 0 := by
      cases ho : Container.isUnclaimed out <;> cases a <;> simp [isUnclaimed, bill, Account.meters, ho]
    have hdispatched : bill (.dispatched domain) a name =
        if a = .dispatched ∧ isDispatch name (.dispatch domain out) = true then 1 else 0 := by
      cases a <;> simp [isDispatch, bill, Account.meters]
    rw [charge, dispatchCharge, Pi.add_apply, Pi.add_apply, Pi.add_apply, Pi.add_apply, hdispatched,
      hunhandled, hfaults]

theorem tally_cons (r : Report) (rs : List Report) (name : String) (a : Account) :
    (tally (r :: rs) name a : Int) = r.charge a name + tally rs name a := by
  rw [r.charge_apply, faultsCharge_apply]
  cases a <;> simp [tally, List.countP_cons, add_comm]

theorem sum_charge (reports : List Report) (a : Account) (name : String) :
    (reports.map Report.charge).sum a name = tally reports name a := by
  induction reports with
  | nil => cases a <;> rfl
  | cons r rs ih => rw [List.map_cons, List.sum_cons, Pi.add_apply, Pi.add_apply, ih, tally_cons]

namespace Store

variable {s t : Store}

theorem count_transitions_moved (s : Store) (component : String) (target : Lifecycle.State) :
    s.transitions.count (.moved component target) = s.board.counted component target := by
  rw [transitions, List.count, List.countP_filterMap]
  refine List.countP_congr fun entry _ => ?_
  rcases entry with _ | ⟨c, _ | i, label, _ | _⟩ <;> simp [Lifecycle.Entry.counts, Lifecycle.Event.arrives]

theorem count_transitions (s : Store) {m : Meter} (hm : m.metric ≠ .transitions) :
    s.transitions.count m = 0 := by
  refine List.count_eq_zero.2 fun hmem => ?_
  obtain ⟨entry, -, hentry⟩ := List.mem_filterMap.1 hmem
  split at hentry
  · exact hm (Option.some.inj hentry ▸ rfl)
  · cases hentry

theorem metered_eq (s : Store) (m : Meter) : s.metered m = s.posted.count m + s.transitions.count m := by
  simp only [metered, reading, posted, List.count_append]
  omega

theorem metered_eq_posted (s : Store) {m : Meter} (hm : m.metric ≠ .transitions) :
    s.metered m = s.posted.count m := by
  rw [metered_eq, count_transitions s hm, add_zero]

/-- What became of an account, in terms of what is posted. -/
theorem Books.posted {d : Charge} (h : Books s t d) (a : Account) (name : String) :
    (t.posted.countP (· ∈ a.meters name) : Int) + s.held a name =
      s.posted.countP (· ∈ a.meters name) + t.held a name + d a name := by
  have hb := congrFun (congrFun h.balance a) name
  simp only [Store.balance, Pi.add_apply] at hb
  omega

end Store

theorem countP_mem_pair {α : Type} [DecidableEq α] {a b : α} (hab : a ≠ b) (l : List α) :
    l.countP (· ∈ [a, b]) = l.count a + l.count b := by
  induction l with
  | nil => rfl
  | cons x l ih =>
    rw [List.countP_cons, List.count_cons, List.count_cons, ih]
    by_cases ha : x = a
    · simp [ha, hab]
      omega
    · simp [ha]
      omega

section

variable {s t : Store} {reports : List Report} {m : Meter}

/-- On every account, what was posted and what is held against it grew alike, but for what the reports come to. -/
theorem Rounds.posted (h : Rounds s reports t) (hs : s.Marked) (a : Account) (name : String) :
    t.posted.countP (· ∈ a.meters name) + s.held a name =
      s.posted.countP (· ∈ a.meters name) + t.held a name + tally reports name a := by
  have hposted := (h.books hs).posted a name
  rw [sum_charge] at hposted
  omega

theorem Rounds.posted_single (h : Rounds s reports t) (hs : s.Marked) (a : Account) (name : String)
    (hm : a.meters name = [m]) : t.posted.count m + s.held a name =
      s.posted.count m + t.held a name + tally reports name a := by
  have hposted := h.posted hs a name
  rw [hm] at hposted
  simp only [List.mem_singleton] at hposted
  exact hposted

/-- A meter that is the only one of its account, and is not of moves. -/
theorem Rounds.metered (h : Rounds s reports t) (hs : s.Marked) (a : Account) (name : String)
    (hm : a.meters name = [m]) (hmetric : m.metric ≠ .transitions) :
    t.metered m + s.held a name = s.metered m + t.held a name + tally reports name a := by
  rw [t.metered_eq_posted hmetric, s.metered_eq_posted hmetric]
  exact h.posted_single hs a name hm

end

/-- Every meter grew by what it is about. -/
structure Tallies (s : Store) (reports : List Report) (t : Store) : Prop where
  dispatched : ∀ domain, t.metered (.dispatched domain) =
    s.metered (.dispatched domain) + reports.countP (·.isDispatch domain)
  unhandled : ∀ domain, t.metered (.unhandled domain) =
    s.metered (.unhandled domain) + reports.countP (·.isUnclaimed domain)
  created : ∀ handler, t.metered (.created handler) + s.builtFor handler =
    s.metered (.created handler) + t.builtFor handler
  /-- Whatever was built was initialized for its handler. -/
  pending : t.pending = s.pending
  constructions : ∀ handler, t.metered (.failed handler .construct) + t.metered (.failed handler .init) =
    s.metered (.failed handler .construct) + s.metered (.failed handler .init) +
      (reports.flatMap Report.faults).countP (·.isConstructionOf handler)
  runs : ∀ handler, t.metered (.failed handler .process) + s.lostFor handler =
    s.metered (.failed handler .process) + t.lostFor handler
  moved : t.board.Attended → ∀ component target,
    t.metered (.moved component target) + s.board.arrivals component target =
      s.metered (.moved component target) + t.board.arrivals component target

/-- The metrics balance. Whatever dispatches and phases do one after the other, and whatever fails in them,
every meter grows by as much as what it counts: dispatches, events that nobody took, instances that were
built and initialized, faults of construction, runs that failed, and moves of components, forced ones among
them. -/
theorem rounds_tally {s t : Store} {reports : List Report} (hs : s.Marked) (h : Rounds s reports t) :
    t.Marked ∧ Tallies s reports t := by
  have hbooks := h.books hs
  refine ⟨hbooks.marked, fun n => ?_, fun n => ?_, fun n => ?_, ?_, fun n => ?_, fun n => ?_, fun ht n st => ?_⟩
  · exact h.metered hs .dispatched n rfl (by simp [Meter.metric])
  · exact h.metered hs .unhandled n rfl (by simp [Meter.metric])
  · exact h.metered hs .building n rfl (by simp [Meter.metric])
  · have hnone := h.posted hs .pending ""
    simp [Account.meters, tally, Store.held] at hnone
    exact hnone.symm
  · have htwo : ∀ u : Store, u.posted.countP (· ∈ Account.construction.meters n) =
        u.metered (.failed n .construct) + u.metered (.failed n .init) := fun u => by
      rw [u.metered_eq_posted (by simp [Meter.metric]), u.metered_eq_posted (by simp [Meter.metric])]
      exact countP_mem_pair (by simp) _
    have hposted := h.posted hs .construction n
    rw [htwo, htwo] at hposted
    exact hposted
  · exact h.metered hs .processing n rfl (by simp [Meter.metric])
  · have hposted := h.posted_single hs (.moving st) n rfl
    have hcounted := hbooks.even.counted ht n st
    rw [t.metered_eq, s.metered_eq, t.count_transitions_moved, s.count_transitions_moved]
    simp only [tally, Store.held, Pi.zero_apply] at hposted hcounted
    omega

/-- Where nothing was run yet, all is marked, if remote endpoints meter calls. -/
theorem Store.marked_of_unused {s : Store} (hr : ∀ g ∈ s.registrations.items, g.cached = none ∧ g.shared = none)
    (ha : s.acts = []) (hm : ∀ m ∈ s.remotes.items, m.MetersCalls) : s.Marked := by
  have hnone : ∀ r, (s.registration r).cached = none ∧ (s.registration r).shared = none := by
    intro r
    rw [registration, Roster.getD, Roster.get?]
    cases hg : s.registrations.items[r]? with
    | none => exact ⟨rfl, rfl⟩
    | some g => exact hr g (List.mem_of_getElem? hg)
  refine ⟨fun r snapshot hs => ?_, fun r i hs => ?_, by simp [ha], hm⟩
  · rw [(hnone r).1] at hs
    cases hs
  · rw [(hnone r).2] at hs
    cases hs

/-- The first context prepares a handler that cannot be constructed; of the second, instances fail to be
initialized the first time and lose what they are given. -/
def sampleWorkshop : Store where
  board := { managers := ["domain", "server", "service", "first", "second"].map fun n =>
    { name := n, subscriptions := [.quiet "counter"] } }
  components := ⟨[
    { kind := .domain {}, children := [("server", 1)] },
    { kind := .server, children := [("service", 2)] },
    { kind := .service, children := [("first", 3), ("second", 4)] },
    { kind := .context { request := .any, response := .any, handlers := [("cache", 0)] } },
    { kind := .context { request := .any, response := .any, handlers := [("echo", 1)] } }]⟩
  registrations := ⟨[{ name := "cache", cls := 0, instancing := .stateless, loadOnStartup := true },
    { name := "echo", cls := 1, instancing := .stateful }]⟩
  classes := ⟨[{ HandlerClass.idle with instancing := .stateless, construct := fun _ => .error "boom" },
    { HandlerClass.idle with
      init := fun n _ => if n = 0 then .error "late" else .ok ()
      duty := .answer fun _ _ _ response => (response, .error "lost") }]⟩

def sampleOrder (handler : String) : RequestEvent where
  request := .text "hi"
  response := .reply ""
  handler := some handler

theorem rounds_tally_sample :
    ∃ reports t, sampleWorkshop.Marked ∧ Rounds sampleWorkshop reports t ∧ Tallies sampleWorkshop reports t ∧
      t.board.Attended ∧ t.metered (.dispatched "domain") = 3 ∧ t.metered (.unhandled "domain") = 1 ∧
      t.metered (.created "echo") = 2 ∧
      t.metered (.failed "cache" .construct) + t.metered (.failed "cache" .init) = 1 ∧
      t.metered (.failed "echo" .construct) + t.metered (.failed "echo" .init) = 1 ∧
      t.metered (.failed "echo" .process) = 1 ∧ t.metered (.moved "first" .failed) = 1 := by
  obtain ⟨told, s₁, out₁, s₂, out₂, s₃, out₃, t, reports, hstart, hfirst, hsecond, hthird, rfl,
      hdispatched, hunhandled, hcache, hecho, hheeded, hsubscribed, hbuilt, hlost, hmoved⟩ :
      ∃ told s₁ out₁ s₂ out₂ s₃ out₃ t reports,
        (phaseTelling 0 .start).run sampleWorkshop = .finished told s₁ ∧
        (dispatchDomain 0 (sampleOrder "echo")).run s₁ = .finished out₁ s₂ ∧
        (dispatchDomain 0 (sampleOrder "echo")).run s₂ = .finished out₂ s₃ ∧
        (dispatchDomain 0 (sampleOrder "nobody")).run s₃ = .finished out₃ t ∧
        reports = [.phase told.2, .dispatch (s₁.name 0) out₁, .dispatch (s₂.name 0) out₂,
          .dispatch (s₃.name 0) out₃] ∧
        tally reports "domain" .dispatched = 3 ∧ tally reports "domain" .unhandled = 1 ∧
        tally reports "cache" .construction = 1 ∧ tally reports "echo" .construction = 1 ∧
        t.board.exhausted = false ∧ (t.board.managers.all fun m => m.isSubscribed 0) = true ∧
        t.builtFor "echo" = 2 ∧ t.lostFor "echo" = 1 ∧ t.board.arrivals "first" .failed = 1 :=
    ⟨_, _, _, _, _, _, _, _, _, rfl, rfl, rfl, rfl, rfl, rfl, rfl, rfl, rfl, rfl, rfl, rfl, rfl, rfl⟩
  have hattended : t.board.Attended := Board.attended_of_managers hheeded (List.all_eq_true.1 hsubscribed)
  have hrefl : ∀ s, OpensGates s s := fun s => ⟨s.gates, rfl⟩
  have hs : sampleWorkshop.Marked := Store.marked_of_unused (by decide) rfl nofun
  have hrounds : Rounds sampleWorkshop _ t :=
    .phase 0 .start (Runs.of_run_writes hrefl hstart) <|
    .dispatch 0 rfl (Runs.of_run_writes hrefl hfirst) <|
    .dispatch 0 rfl (Runs.of_run_writes hrefl hsecond) <|
    .dispatch 0 rfl (Runs.of_run_writes hrefl hthird) (.done t)
  obtain ⟨-, htallies⟩ := rounds_tally hs hrounds
  refine ⟨_, t, hs, hrounds, htallies, hattended, ?_, ?_, ?_, ?_, ?_, ?_, ?_⟩
  · exact (htallies.dispatched "domain").trans ((Nat.zero_add _).trans hdispatched)
  · exact (htallies.unhandled "domain").trans ((Nat.zero_add _).trans hunhandled)
  · exact (htallies.created "echo").trans ((Nat.zero_add _).trans hbuilt)
  · exact (htallies.constructions "cache").trans ((Nat.zero_add _).trans hcache)
  · exact (htallies.constructions "echo").trans ((Nat.zero_add _).trans hecho)
  · exact (htallies.runs "echo").trans ((Nat.zero_add _).trans hlost)
  · exact (htallies.moved hattended "first" .failed).trans ((Nat.zero_add _).trans hmoved)

end Switchboard.Container
