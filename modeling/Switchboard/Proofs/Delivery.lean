import Mathlib.Logic.Relation
import Switchboard.Proofs.Walks

/-!
# Deliveries

A listener may answer what it hears with operations of its own, and what these
announce is delivered before the next listener hears of the first. A `Round` keeps
what is still to be done as an agenda, so that nesting is a matter of what stands in
front: `Step` takes the first item off, and an announcement puts its errands there,
one for each listener that is subscribed when it begins. What a round has announced
and whom it told stand in lists of their own; `Orderly` relates them to the agenda,
step by step, and `Accounted` is what is left of it when the agenda is empty. The
operations of a board are such rounds (`plays_announceFrom`).
-/

namespace Switchboard.Lifecycle

/-! ## Moves that follow on one another -/

/-- A move that is accepted on request, or that is forced. -/
def Legal (s t : State) : Prop := transition s t = .accept ∨ (t = .failed ∧ s ≠ .failed)

/-- The moves lead from one state to the other. Each of them is legal and begins where the one
before it ended. -/
def Linked : State → List (State × State) → State → Prop
  | s, [], t => s = t
  | s, (u, v) :: moves, t => u = s ∧ Legal u v ∧ Linked v moves t

theorem Linked.append {s t u : State} {moves moves' : List (State × State)} (h : Linked s moves t)
    (k : Linked t moves' u) : Linked s (moves ++ moves') u := by
  induction moves generalizing s with
  | nil =>
    obtain rfl : s = t := h
    exact k
  | cons m moves ih => exact ⟨h.1, h.2.1, ih h.2.2⟩

theorem Linked.single {s t : State} (h : Legal s t) : Linked s [(s, t)] t := ⟨rfl, h, rfl⟩

/-! ## Operations -/

/-- What is asked of a board, be it from outside or by a listener. -/
inductive Operation where
  | request (component : ComponentId) (target : State)
  | fail (component : ComponentId)
  | notify (component : ComponentId) (event : Event)
  | subscribe (component : ComponentId) (subscription : Subscription)
  | unsubscribe (component : ComponentId) (listener : ListenerId)
  | dismiss (component : ComponentId) (label : String)

/-- What a deed of one of the component's listeners asks for. -/
def Deed.operation (c : ComponentId) : Deed → Operation
  | .request d target => .request d target
  | .fail d => .fail d
  | .unsubscribe label => .dismiss c label

def Operation.runWith (announce : Board → ComponentId → Event → Board) (b : Board) : Operation → Board
  | request c target => (b.requestWith announce c target).1
  | fail c => b.failWith announce c
  | notify c e => announce b c e
  | subscribe c s => b.subscribe c s
  | unsubscribe c i => (b.unsubscribe c i).1
  | dismiss c label => b.unsubscribeLabel c label

theorem Deed.runWith_operation (announce : Board → ComponentId → Event → Board) (b : Board)
    (c : ComponentId) (d : Deed) : (d.operation c).runWith announce b = b.performWith announce c d := by
  cases d <;> rfl

/-- What is refused or ignored changes nothing, and nobody is told of it. -/
theorem runWith_refused {b : Board} {c : ComponentId} {target : State}
    (announce : Board → ComponentId → Event → Board) (h : transition (b.state c) target ≠ .accept) :
    (Operation.request c target).runWith announce b = b := by
  rw [Operation.runWith, Board.requestWith]
  cases ht : transition (b.state c) target with
  | deny => rfl
  | ignore => rfl
  | accept => exact absurd ht h

namespace Board

/-- The board as a move leaves it, before anyone has heard of it. -/
def moved (b : Board) (c : ComponentId) (target : State) : Board :=
  (b.update c fun m => { m with state := target }).log (.committed c (b.state c) target)

/-- The operations one after the other, with announcements nested at most `n` deep. -/
def runAll (n : Nat) (b : Board) (ops : List Operation) : Board :=
  ops.foldl (fun b o => o.runWith (announceFrom n) b) b

variable {b : Board} {c d : ComponentId}

theorem isSome_manager?_moved (b : Board) (c d : ComponentId) (target : State) :
    ((b.moved c target).manager? d).isSome = (b.manager? d).isSome :=
  isSome_manager?_update b c d _

theorem name_moved (b : Board) (c : ComponentId) (target : State) :
    (b.moved c target).name c = b.name c := by
  show (((b.update c fun m => { m with state := target }).manager? c).map (·.name)).getD "" = _
  rw [manager?_update, if_pos rfl, name]
  cases b.manager? c <;> rfl

theorem state_moved_self (hc : (b.manager? c).isSome = true) (target : State) :
    (b.moved c target).state c = target := by
  show (((b.update c fun m => { m with state := target }).manager? c).map (·.state)).getD .new = _
  obtain ⟨m, hm⟩ := Option.isSome_iff_exists.1 hc
  rw [manager?_update, if_pos rfl, hm]
  rfl

theorem state_moved_of_ne (h : c ≠ d) (target : State) : (b.moved c target).state d = b.state d := by
  show (((b.update c fun m => { m with state := target }).manager? d).map (·.state)).getD .new = _
  rw [manager?_update, if_neg h, state]

/-! ## Who is subscribed -/

theorem mem_active_iff {m : Manager} {i : ListenerId} :
    i ∈ m.active.map (·.1) ↔ m.isSubscribed i = true := by
  simp only [Manager.active, Manager.isSubscribed, List.mem_map, List.mem_filter, Prod.exists,
    Prod.mk.injEq, List.mem_zipIdx_iff_getElem?]
  constructor
  · rintro ⟨j, s, ⟨⟨t, k, ht, rfl, rfl⟩, hs⟩, rfl⟩
    rw [ht]
    exact hs
  · intro h
    cases hs : m.subscriptions[i]? with
    | none => rw [hs] at h; cases h
    | some s => rw [hs] at h; exact ⟨i, s, ⟨⟨s, i, hs, rfl, rfl⟩, h⟩, rfl⟩

/-- The listeners stand in the order in which they subscribed, each of them once. -/
theorem active_sorted (m : Manager) : (m.active.map (·.1)).Pairwise (· < ·) := by
  have hall : (m.subscriptions.zipIdx.map (·.2)).Pairwise (· < ·) := by
    rw [List.zipIdx_map_snd]
    exact List.pairwise_lt_range'
  rw [Manager.active, List.pairwise_map]
  refine List.Pairwise.filter _ ?_
  rw [List.pairwise_map] at hall ⊢
  exact hall

end Board

/-! ## Rounds -/

/-- What is to be delivered to the listeners of a component, with the board as it was when the
delivery began. Of a move, the states before and after are kept. -/
structure Announcement where
  board : Board
  component : ComponentId
  event : Event
  move : Option (State × State)

/-- One delivery to one listener, on account of the announcement of a number. -/
structure Errand where
  announcement : Nat
  component : ComponentId
  event : Event
  listener : ListenerId × Subscription

def Errand.entry (x : Errand) : Entry := .delivered x.component x.listener.1 x.listener.2.label x.event

namespace Announcement

def errands (a : Announcement) (k : Nat) : List Errand :=
  (a.board.active a.component).map fun l => ⟨k, a.component, a.event, l⟩

/-- What is put on record of a move. -/
def entry? (a : Announcement) : Option Entry := a.move.map fun m => .committed a.component m.1 m.2

/-- The move, if it is one of the component. -/
def moveOf? (c : ComponentId) (a : Announcement) : Option (State × State) :=
  if a.component = c then a.move else none

end Announcement

/-- What is to be done: to tell a listener of something, or to carry out an operation. -/
inductive Item where
  | tell (errand : Errand)
  | perform (operation : Operation)

def Item.errand? : Item → Option Errand
  | tell x => some x
  | perform _ => none

/-- A board in the midst of deliveries. -/
structure Round where
  board : Board
  agenda : List Item
  announced : List Announcement := []
  told : List Errand := []

namespace Round

def start (b : Board) (ops : List Operation) : Round := { board := b, agenda := ops.map .perform }

/-- The errands that are on the agenda. -/
def due (p : Round) : List Errand := p.agenda.filterMap Item.errand?

/-- Begins a delivery, which comes before all else that is to be done. -/
def announce (p : Round) (a : Announcement) : Round where
  board := a.board
  agenda := (a.errands p.announced.length).map .tell ++ p.agenda
  announced := p.announced ++ [a]
  told := p.told

def move (p : Round) (c : ComponentId) (target : State) : Round :=
  let source := p.board.state c
  p.announce ⟨p.board.moved c target, c, .moved (p.board.name c) source target, some (source, target)⟩

def perform (p : Round) : Operation → Round
  | .request c target => if transition (p.board.state c) target = .accept then p.move c target else p
  | .fail c => if p.board.state c = .failed then p else p.move c .failed
  | .notify c e => p.announce ⟨p.board, c, e, none⟩
  | .subscribe c s => { p with board := p.board.subscribe c s }
  | .unsubscribe c i => { p with board := (p.board.unsubscribe c i).1 }
  | .dismiss c label => { p with board := p.board.unsubscribeLabel c label }

/-- One item is dealt with. What a listener may answer is up to `answers`. -/
inductive Step (answers : Errand → List Operation → Prop) : Round → Round → Prop where
  | tell {p : Round} {x : Errand} {rest : List Item} {ops : List Operation} :
      p.agenda = .tell x :: rest → answers x ops →
      Step answers p { p with
        board := p.board.log x.entry
        agenda := ops.map .perform ++ rest
        told := p.told ++ [x] }
  | perform {p : Round} {o : Operation} {rest : List Item} :
      p.agenda = .perform o :: rest → Step answers p (perform { p with agenda := rest } o)

/-- Listeners answer with the deeds that they subscribed with. -/
def Subscribed (x : Errand) (ops : List Operation) : Prop :=
  ops = (x.listener.2.respond x.event).map (·.operation x.component)

end Round

def Entry.isCommit : Entry → Bool
  | committed .. => true
  | _ => false

def Entry.isDelivery : Entry → Bool
  | delivered .. => true
  | _ => false

/-- What a round has put on record since it began with the board `b`. What it announced stands in the
order in which it was begun, so that its moves stand in the order in which they were committed. -/
structure Recorded (b : Board) (p : Round) : Prop where
  /-- The journal shows the deliveries that were made and the moves that were announced, no others. -/
  journal : ∃ news : List Entry, p.board.journal = news.reverse ++ b.journal ∧
    news.filter Entry.isDelivery = p.told.map Errand.entry ∧
    news.filter Entry.isCommit = p.announced.filterMap Announcement.entry?
  named : ∀ a ∈ p.announced, ∀ s t, a.move = some (s, t) →
    a.event = .moved (a.board.name a.component) s t
  linked : ∀ c, (b.manager? c).isSome = true →
    Linked (b.state c) (p.announced.filterMap (·.moveOf? c)) (p.board.state c)

/-- How a round has ended: who was subscribed when a delivery began was told once, in the order of
subscription, and nobody was told of anything else. -/
structure Accounted (b : Board) (p : Round) : Prop extends Recorded b p where
  served : ∀ k a, p.announced[k]? = some a → p.told.filter (·.announcement = k) = a.errands k
  owed : ∀ x ∈ p.told, x.announcement < p.announced.length

/-- The same while there is something left on the agenda: what was announced is told or due. -/
structure Orderly (b : Board) (p : Round) : Prop extends Recorded b p where
  shared : ∀ k a, p.announced[k]? = some a →
    (p.told ++ p.due).filter (·.announcement = k) = a.errands k
  numbered : ∀ x ∈ p.told ++ p.due, x.announcement < p.announced.length
  known : ∀ c, (p.board.manager? c).isSome = (b.manager? c).isSome

theorem Orderly.accounted {b : Board} {p : Round} (h : Orderly b p) (hp : p.agenda = []) :
    Accounted b p := by
  have hdue : p.told ++ p.due = p.told := by rw [Round.due, hp, List.filterMap_nil, List.append_nil]
  exact { h.toRecorded with served := hdue ▸ h.shared, owed := hdue ▸ h.numbered }

/-! ## What a step keeps -/

section

variable {b : Board} {p : Round}

@[simp] theorem filterMap_errand?_perform (ops : List Operation) :
    (ops.map Item.perform).filterMap Item.errand? = [] := by
  rw [List.filterMap_map, List.filterMap_eq_nil_iff]
  exact fun _ _ => rfl

@[simp] theorem filterMap_errand?_tell (xs : List Errand) :
    (xs.map Item.tell).filterMap Item.errand? = xs := by
  rw [List.filterMap_map]
  exact List.filterMap_some

theorem orderly_start (b : Board) (ops : List Operation) : Orderly b (.start b ops) where
  journal := ⟨[], rfl, rfl, rfl⟩
  shared k a h := by simp [Round.start] at h
  numbered x hx := by
    rw [Round.start, Round.due, filterMap_errand?_perform] at hx
    cases hx
  named a ha := by simp [Round.start] at ha
  known c := rfl
  linked c _ := rfl

/-- A delivery that is made is no longer due. -/
theorem Orderly.tell {x : Errand} {rest : List Item} {ops : List Operation} (h : Orderly b p)
    (hp : p.agenda = .tell x :: rest) :
    Orderly b { p with
      board := p.board.log x.entry
      agenda := ops.map .perform ++ rest
      told := p.told ++ [x] } := by
  obtain ⟨news, hnews, hdel, hcom⟩ := h.journal
  have hdue : p.told ++ p.due =
      (p.told ++ [x]) ++ (ops.map Item.perform ++ rest).filterMap Item.errand? := by
    rw [Round.due, hp, List.filterMap_append, filterMap_errand?_perform, List.nil_append,
      List.append_assoc]
    rfl
  refine { journal := ⟨news ++ [x.entry], ?_, ?_, ?_⟩, shared := ?_, numbered := ?_, named := h.named,
           known := h.known, linked := h.linked }
  · show x.entry :: p.board.journal = _
    rw [hnews, List.reverse_append]
    rfl
  · rw [List.filter_append, hdel, List.map_append]
    rfl
  · rw [List.filter_append, hcom]
    exact List.append_nil _
  · exact hdue ▸ h.shared
  · exact hdue ▸ h.numbered

/-- Operations that announce nothing leave what was announced, and the states. -/
theorem Orderly.rewrite {f : Manager → Manager} (h : Orderly b p) (hf : ∀ m, (f m).state = m.state)
    (c : ComponentId) : Orderly b { p with board := p.board.update c f } where
  journal := h.journal
  shared := h.shared
  numbered := h.numbered
  named := h.named
  known d := (Board.isSome_manager?_update p.board c d f).trans (h.known d)
  linked d hd := by
    show Linked _ _ ((p.board.update c f).state d)
    rw [Board.state_update hf]
    exact h.linked d hd

/-- An announcement is on record with the move that it tells of. -/
theorem Recorded.announce {a : Announcement} (h : Recorded b p)
    (hjournal : a.board.journal = a.entry?.toList ++ p.board.journal)
    (hnamed : ∀ s t, a.move = some (s, t) → a.event = .moved (a.board.name a.component) s t)
    (hlinked : ∀ d, (b.manager? d).isSome = true →
      Linked (p.board.state d) (a.moveOf? d).toList (a.board.state d)) :
    Recorded b (p.announce a) := by
  obtain ⟨news, hnews, hdel, hcom⟩ := h.journal
  refine { journal := ⟨news ++ a.entry?.toList, ?journal, ?deliveries, ?commits⟩, named := ?named,
           linked := ?linked }
  case journal =>
    show a.board.journal = _
    rw [hjournal, hnews, List.reverse_append, List.append_assoc]
    cases a.entry? <;> rfl
  case deliveries =>
    show _ = p.told.map Errand.entry
    rw [List.filter_append, hdel, Announcement.entry?]
    cases a.move <;> exact List.append_nil _
  case commits =>
    show _ = (p.announced ++ [a]).filterMap Announcement.entry?
    rw [List.filter_append, hcom, List.filterMap_append, List.filterMap_cons, Announcement.entry?]
    cases a.move <;> rfl
  case named =>
    intro a' ha'
    rcases List.mem_append.1 ha' with ha' | ha'
    · exact h.named a' ha'
    · obtain rfl := List.mem_singleton.1 ha'
      exact hnamed
  case linked =>
    intro d hd
    show Linked _ ((p.announced ++ [a]).filterMap (·.moveOf? d)) (a.board.state d)
    have hlast : [a].filterMap (·.moveOf? d) = (a.moveOf? d).toList := by
      rw [List.filterMap_cons]
      cases a.moveOf? d <;> rfl
    rw [List.filterMap_append, hlast]
    exact (h.linked d hd).append (hlinked d hd)

theorem announcement_of_mem_errands {a : Announcement} {k : Nat} {x : Errand} (h : x ∈ a.errands k) :
    x.announcement = k := by
  obtain ⟨l, -, rfl⟩ := List.mem_map.1 h
  rfl

/-- Errands with other numbers are none of the announcement's. -/
theorem filter_announcement_eq_nil {xs : List Errand} {k : Nat} (h : ∀ x ∈ xs, x.announcement ≠ k) :
    xs.filter (·.announcement = k) = [] :=
  List.filter_eq_nil_iff.2 fun x hx => by simpa using h x hx

theorem due_announce (p : Round) (a : Announcement) :
    (p.announce a).due = a.errands p.announced.length ++ p.due := by
  rw [Round.due, Round.announce, List.filterMap_append, filterMap_errand?_tell, Round.due]

/-- A new announcement owes its event to those that are subscribed. Its number is new too, so that it
adds nothing to what the others owe. -/
theorem Orderly.shared_announce (h : Orderly b p) (a : Announcement) {k : Nat} {a' : Announcement}
    (hk : (p.announced ++ [a])[k]? = some a') :
    (p.told ++ (p.announce a).due).filter (·.announcement = k) = a'.errands k := by
  rw [due_announce, List.filter_append, List.filter_append]
  rcases Nat.lt_or_ge k p.announced.length with hlt | hge
  · rw [List.getElem?_append_left hlt] at hk
    have hold := h.shared k a' hk
    have hnew : (a.errands p.announced.length).filter (·.announcement = k) = [] :=
      filter_announcement_eq_nil fun x hx => announcement_of_mem_errands hx ▸ Nat.ne_of_gt hlt
    rw [List.filter_append] at hold
    rw [hnew, List.nil_append, hold]
  · obtain ⟨rfl, rfl⟩ : k = p.announced.length ∧ a = a' := by
      rw [List.getElem?_append_right hge] at hk
      cases hz : k - p.announced.length with
      | zero =>
        rw [hz] at hk
        exact ⟨by omega, Option.some.inj hk⟩
      | succ n => rw [hz] at hk; cases hk
    have hnone : ∀ xs : List Errand, xs ⊆ p.told ++ p.due →
        xs.filter (·.announcement = p.announced.length) = [] := fun xs hxs =>
      filter_announcement_eq_nil fun x hx => Nat.ne_of_lt (h.numbered x (hxs hx))
    rw [hnone _ (List.subset_append_left _ _), hnone _ (List.subset_append_right _ _),
      List.nil_append, List.append_nil, List.filter_eq_self]
    exact fun x hx => decide_eq_true (announcement_of_mem_errands hx)

theorem Orderly.numbered_announce (h : Orderly b p) (a : Announcement) {x : Errand}
    (hx : x ∈ p.told ++ (p.announce a).due) : x.announcement < (p.announced ++ [a]).length := by
  rw [List.length_append, List.length_singleton]
  rw [due_announce, List.mem_append, List.mem_append] at hx
  rcases hx with hx | hx | hx
  · exact Nat.lt_succ_of_lt (h.numbered x (List.mem_append_left _ hx))
  · exact announcement_of_mem_errands hx ▸ Nat.lt_succ_self _
  · exact Nat.lt_succ_of_lt (h.numbered x (List.mem_append_right _ hx))

theorem Orderly.announce {a : Announcement} (h : Orderly b p)
    (hjournal : a.board.journal = a.entry?.toList ++ p.board.journal)
    (hnamed : ∀ s t, a.move = some (s, t) → a.event = .moved (a.board.name a.component) s t)
    (hknown : ∀ d, (a.board.manager? d).isSome = (p.board.manager? d).isSome)
    (hlinked : ∀ d, (p.board.manager? d).isSome = true →
      Linked (p.board.state d) (a.moveOf? d).toList (a.board.state d)) :
    Orderly b (p.announce a) where
  toRecorded := h.toRecorded.announce hjournal hnamed fun d hd => hlinked d ((h.known d).trans hd)
  shared _ _ hk := h.shared_announce a hk
  numbered _ hx := h.numbered_announce a hx
  known d := (hknown d).trans (h.known d)

theorem Orderly.move {c : ComponentId} {target : State} (h : Orderly b p)
    (hl : Legal (p.board.state c) target) : Orderly b (p.move c target) := by
  refine h.announce rfl ?_ ?_ ?_
  · rintro s t ⟨⟩
    rw [Board.name_moved]
  · exact fun d => Board.isSome_manager?_moved p.board c d target
  · intro d hd
    by_cases hcd : c = d
    · subst hcd
      rw [Announcement.moveOf?, if_pos rfl, Board.state_moved_self hd]
      exact .single hl
    · rw [Announcement.moveOf?, if_neg hcd, Board.state_moved_of_ne hcd]
      rfl

theorem Orderly.perform (h : Orderly b p) (o : Operation) : Orderly b (p.perform o) := by
  cases o with
  | request c target =>
    by_cases ha : transition (p.board.state c) target = .accept
    · rw [Round.perform, if_pos ha]
      exact h.move (.inl ha)
    · rw [Round.perform, if_neg ha]
      exact h
  | fail c =>
    by_cases hf : p.board.state c = .failed
    · rw [Round.perform, if_pos hf]
      exact h
    · rw [Round.perform, if_neg hf]
      exact h.move (.inr ⟨rfl, hf⟩)
  | notify c e =>
    refine h.announce rfl ?_ (fun _ => rfl) fun d _ => ?_
    · rintro s t ⟨⟩
    · rw [Announcement.moveOf?, ite_self]
      rfl
  | subscribe c s => exact h.rewrite (f := (·.subscribe s)) (fun _ => rfl) c
  | unsubscribe c i => exact h.rewrite (f := (·.unsubscribe i)) (fun _ => rfl) c
  | dismiss c label =>
    refine h.rewrite (fun m => ?_) c
    cases m.labelled? label <;> rfl

theorem Orderly.step {answers : Errand → List Operation → Prop} {q : Round} (h : Orderly b p)
    (hs : Round.Step answers p q) : Orderly b q := by
  cases hs with
  | tell hp _ => exact h.tell hp
  | perform hp =>
    rename_i o rest
    have hdue : p.due = Round.due { p with agenda := rest } := by rw [Round.due, hp]; rfl
    have hrest : Orderly b { p with agenda := rest } := {
      journal := h.journal, named := h.named, linked := h.linked
      shared := hdue ▸ h.shared, numbered := hdue ▸ h.numbered, known := h.known }
    exact hrest.perform o

/-- Whatever the listeners answer, a round stays orderly. -/
theorem orderly_run {answers : Errand → List Operation → Prop} {ops : List Operation} {q : Round}
    (h : Relation.ReflTransGen (Round.Step answers) (.start b ops) q) : Orderly b q := by
  induction h with
  | refl => exact orderly_start b ops
  | tail _ hs ih => exact ih.step hs

end

/-! ## The operations of a board are rounds -/

/-- The round comes to what the board has come to, with the rest of its agenda left. -/
def Settles (p : Round) (rest : List Item) (b : Board) : Prop :=
  ∃ announced told, Relation.ReflTransGen (Round.Step Round.Subscribed) p ⟨b, rest, announced, told⟩

/-- The items lead from one board to the other, whatever else is on the agenda. That is, if nothing is
cut short in the end; then nothing was before. -/
def Plays (items : List Item) (b b' : Board) : Prop :=
  b'.exhausted = false → b.exhausted = false ∧ ∀ rest announced told,
    Settles ⟨b, items ++ rest, announced, told⟩ rest b'

theorem Plays.nil (b : Board) : Plays [] b b := fun hx => ⟨hx, fun _ _ _ => ⟨_, _, .refl⟩⟩

theorem Plays.append {items items' : List Item} {b b' b'' : Board} (h : Plays items b b')
    (k : Plays items' b' b'') : Plays (items ++ items') b b'' := by
  intro hx
  obtain ⟨hx', hsecond⟩ := k hx
  obtain ⟨hx, hfirst⟩ := h hx'
  refine ⟨hx, fun rest announced told => ?_⟩
  obtain ⟨announced', told', hrun⟩ := hfirst (items' ++ rest) announced told
  obtain ⟨announced'', told'', hrun'⟩ := hsecond rest announced' told'
  rw [List.append_assoc]
  exact ⟨_, _, hrun.trans hrun'⟩

theorem Settles.refl (b : Board) (rest : List Item) (announced : List Announcement) (told : List Errand) :
    Settles ⟨b, rest, announced, told⟩ rest b := ⟨_, _, .refl⟩

/-- An operation is taken off the agenda; what it announces is left to be settled. -/
theorem plays_perform {b b' : Board} {o : Operation}
    (h : b'.exhausted = false → b.exhausted = false ∧ ∀ rest announced told,
      Settles (Round.perform ⟨b, rest, announced, told⟩ o) rest b') : Plays [.perform o] b b' := by
  intro hx
  obtain ⟨hx, hsettles⟩ := h hx
  refine ⟨hx, fun rest announced told => ?_⟩
  obtain ⟨announced', told', hrun⟩ := hsettles rest announced told
  exact ⟨_, _, .head (.perform rfl) hrun⟩

section

variable {announce : Board → ComponentId → Event → Board}
  (ha : ∀ b c e move k, Plays (((⟨b, c, e, move⟩ : Announcement).errands k).map .tell) b (announce b c e))
include ha

/-- A move is committed and announced at once. -/
theorem plays_commitWith {b : Board} {c : ComponentId} {target : State} {o : Operation}
    (hp : ∀ rest announced told, Round.perform ⟨b, rest, announced, told⟩ o =
      Round.move ⟨b, rest, announced, told⟩ c target) :
    Plays [.perform o] b (b.commitWith announce c target) := by
  refine plays_perform fun hx => ⟨(ha _ c _ none 0 hx).1, fun rest announced told => ?_⟩
  rw [hp]
  exact (ha (b.moved c target) c _ (some (b.state c, target)) announced.length hx).2 rest _ told

theorem plays_operation (b : Board) (o : Operation) : Plays [.perform o] b (o.runWith announce b) := by
  cases o with
  | request c target =>
    by_cases h : transition (b.state c) target = .accept
    · have hrun : (Operation.request c target).runWith announce b = b.commitWith announce c target := by
        simp only [Operation.runWith, Board.requestWith, h]
      exact hrun ▸ plays_commitWith ha fun _ _ _ => if_pos h
    · rw [runWith_refused announce h]
      refine plays_perform fun hx => ⟨hx, fun rest announced told => ?_⟩
      rw [Round.perform, if_neg h]
      exact .refl b rest announced told
  | fail c =>
    by_cases h : b.state c = .failed
    · have hrun : (Operation.fail c).runWith announce b = b := if_pos h
      rw [hrun]
      refine plays_perform fun hx => ⟨hx, fun rest announced told => ?_⟩
      rw [Round.perform, if_pos h]
      exact .refl b rest announced told
    · have hrun : (Operation.fail c).runWith announce b = b.commitWith announce c .failed := if_neg h
      exact hrun ▸ plays_commitWith ha fun _ _ _ => if_neg h
  | notify c e =>
    refine plays_perform fun hx => ⟨(ha b c e none 0 hx).1, fun rest announced told => ?_⟩
    exact (ha b c e none announced.length hx).2 rest _ told
  | subscribe c s => exact plays_perform fun hx => ⟨hx, .refl (b.subscribe c s)⟩
  | unsubscribe c i => exact plays_perform fun hx => ⟨hx, .refl (b.unsubscribe c i).1⟩
  | dismiss c label => exact plays_perform fun hx => ⟨hx, .refl (b.unsubscribeLabel c label)⟩

theorem plays_operations (ops : List Operation) (b : Board) :
    Plays (ops.map .perform) b (ops.foldl (fun b o => o.runWith announce b) b) := by
  induction ops generalizing b with
  | nil => exact .nil b
  | cons o ops ih => exact (plays_operation ha b o).append (ih _)

/-- A listener is told, and then carries out its deeds before anyone else is told. -/
theorem plays_tellWith (b : Board) (c : ComponentId) (e : Event) (k : Nat)
    (l : ListenerId × Subscription) : Plays [.tell ⟨k, c, e, l⟩] b (Board.tellWith announce c e b l) := by
  have hdeeds := plays_operations ha ((l.2.respond e).map (·.operation c))
    (b.log (.delivered c l.1 l.2.label e))
  rw [List.foldl_map] at hdeeds
  simp only [Deed.runWith_operation] at hdeeds
  intro hx
  obtain ⟨hx, hrun⟩ := hdeeds hx
  refine ⟨hx, fun rest announced told => ?_⟩
  obtain ⟨announced', told', hrun⟩ := hrun rest announced (told ++ [⟨k, c, e, l⟩])
  exact ⟨_, _, .head (.tell rfl rfl) hrun⟩

theorem plays_tells (c : ComponentId) (e : Event) (k : Nat) (ls : List (ListenerId × Subscription))
    (b : Board) : Plays (ls.map fun l => .tell ⟨k, c, e, l⟩) b (ls.foldl (Board.tellWith announce c e) b) := by
  induction ls generalizing b with
  | nil => exact .nil b
  | cons l ls ih => exact (plays_tellWith ha b c e k l).append (ih _)

end

/-- However deep they nest, announcements deliver what is owed to the listeners subscribed when they
begin. -/
theorem plays_announceFrom (n : Nat) (b : Board) (c : ComponentId) (e : Event)
    (move : Option (State × State)) (k : Nat) :
    Plays (((⟨b, c, e, move⟩ : Announcement).errands k).map .tell) b (Board.announceFrom n b c e) := by
  induction n generalizing b c e move k with
  | zero =>
    intro hx
    cases hx
  | succ n ih =>
    unfold Board.announceFrom
    split
    next hb =>
      intro hx
      cases hb.symm.trans hx
    next =>
      rw [Announcement.errands, List.map_map]
      exact plays_tells ih c e k _ b

/-- An announcement has an errand for each listener that is subscribed and for no other, in the order
in which they subscribed. -/
theorem errands_subscribed (a : Announcement) (k : Nat) :
    ((a.errands k).map (·.listener.1)).Pairwise (· < ·) ∧
      ∀ i, i ∈ (a.errands k).map (·.listener.1) ↔ a.board.isSubscribed a.component i = true := by
  simp only [Announcement.errands, List.map_map, Board.active, Board.isSubscribed]
  cases a.board.manager? a.component with
  | none => exact ⟨.nil, fun i => by simp⟩
  | some m => exact ⟨Board.active_sorted m, fun i => Board.mem_active_iff⟩

/-- Nobody misses an event, hears it twice or hears what it is not subscribed to, whatever listeners
do while others are told: any round that comes to its end is accounted for, and the operations of a
board are such a round unless they are cut short. What is refused changes nothing at all. -/
theorem deliveries_accounted (n : Nat) (b : Board) (ops : List Operation) :
    (∀ answers p, Relation.ReflTransGen (Round.Step answers) (.start b ops) p → p.agenda = [] →
      Accounted b p) ∧
    ((b.runAll n ops).exhausted = false → ∃ p, p.board = b.runAll n ops ∧ p.agenda = [] ∧
      Relation.ReflTransGen (Round.Step Round.Subscribed) (.start b ops) p ∧ Accounted b p) ∧
    (∀ (a : Announcement) k, ((a.errands k).map (·.listener.1)).Pairwise (· < ·) ∧
      ∀ i, i ∈ (a.errands k).map (·.listener.1) ↔ a.board.isSubscribed a.component i = true) ∧
    ∀ (p : Round) c target, transition (p.board.state c) target ≠ .accept →
      p.perform (.request c target) = p ∧ p.board.runAll n [.request c target] = p.board := by
  refine ⟨fun answers p hrun hp => (orderly_run hrun).accounted hp, fun hx => ?_, errands_subscribed,
    fun p c target h => ⟨if_neg h, runWith_refused _ h⟩⟩
  have hplays := plays_operations (fun b c e move k => plays_announceFrom n b c e move k) ops b
  obtain ⟨announced, told, hrun⟩ := (hplays hx).2 [] [] []
  rw [List.append_nil] at hrun
  exact ⟨_, rfl, rfl, hrun, (orderly_run hrun).accounted rfl⟩

/-- The first of three listeners has the second dismissed and the component started when it hears that
it is initialized. -/
def bustling : Board where
  managers := [{ name := "c", state := .initializing, subscriptions := [
    .on "first" (some (.entered .initialized)) [.unsubscribe "second", .request 0 .started],
    .quiet "second", .quiet "third"] }]

/-- The second still hears of the move on which it was dismissed, after the first has heard of the one
that came of it. -/
theorem deliveries_accounted_bustling :
    (bustling.runAll 5 [.request 0 .initialized]).exhausted = false ∧
      (∃ p, p.board = bustling.runAll 5 [.request 0 .initialized] ∧ p.agenda = [] ∧
        Relation.ReflTransGen (Round.Step Round.Subscribed) (.start bustling [.request 0 .initialized]) p ∧
        Accounted bustling p) ∧
      (bustling.runAll 5 [.request 0 .initialized]).journal.reverse = [
        .committed 0 .initializing .initialized,
        .delivered 0 0 "first" (.moved "c" .initializing .initialized),
        .committed 0 .initialized .started,
        .delivered 0 0 "first" (.moved "c" .initialized .started),
        .delivered 0 2 "third" (.moved "c" .initialized .started),
        .delivered 0 1 "second" (.moved "c" .initializing .initialized),
        .delivered 0 2 "third" (.moved "c" .initializing .initialized)] ∧
      transition (bustling.state 0) .stopped ≠ .accept ∧
      bustling.runAll 5 [.request 0 .stopped] = bustling := by
  have hx : (bustling.runAll 5 [.request 0 .initialized]).exhausted = false := by decide
  have hdeny : transition (bustling.state 0) .stopped ≠ .accept := by decide
  obtain ⟨hany, hown, -, hrefused⟩ := deliveries_accounted 5 bustling [.request 0 .initialized]
  obtain ⟨p, hboard, hagenda, hrun, -⟩ := hown hx
  exact ⟨hx, ⟨p, hboard, hagenda, hrun, hany _ p hrun hagenda⟩, by rfl, hdeny,
    (hrefused (.start bustling []) 0 .stopped hdeny).2⟩

end Switchboard.Lifecycle
