import Switchboard.Container.Tree
import Switchboard.Proofs.Board

/-!
# Registries and owner slots

What a parent has in its registry and what the children have in their slots are
written one after the other. `Consistent` says that they agree: a live parent
has exactly those children whose slots point at it, each under its own name. It
holds of an empty store and after every move on the tree, whether the move is
carried out or refused; between the two writes of an add only the child that is
on its way is out of place, which `Claimed` states.
-/

namespace Switchboard.Container

open Lifecycle (Board Event State Subscription ListenerId)

/-! ## One registry -/

/-- Names are distinct, and every child is under its own. -/
structure Filed (name : ComponentId → String) (d : Directory ComponentId) : Prop where
  nodup : d.names.Nodup
  named : ∀ n c, (n, c) ∈ d → n = name c

section

variable {name : ComponentId → String} {d d' : Directory ComponentId} {c c' : ComponentId}

theorem Filed.mem_values (h : Filed name d) : c ∈ d.values ↔ d.find? (name c) = some c := by
  rw [Directory.find?_eq_some_iff h.nodup]
  constructor
  · intro hc
    obtain ⟨⟨n, _⟩, he, rfl⟩ := List.mem_map.1 hc
    rwa [← h.named n _ he]
  · exact fun he => List.mem_map.2 ⟨_, he, rfl⟩

theorem Filed.name_of_find? (h : Filed name d) {n : String} (hf : d.find? n = some c) : n = name c :=
  h.named n c (Directory.mem_of_find? hf)

theorem Filed.sublist (h : Filed name d) (hs : d'.Sublist d) : Filed name d' where
  nodup := List.Nodup.sublist (hs.map _) h.nodup
  named n c hc := h.named n c (hs.mem hc)

theorem Filed.congr {name' : ComponentId → String} (h : Filed name d)
    (hn : ∀ c ∈ d.values, name' c = name c) : Filed name' d where
  nodup := h.nodup
  named n c hc := (h.named n c hc).trans (hn c (List.mem_map.2 ⟨_, hc, rfl⟩)).symm

theorem Filed.put (h : Filed name d) (c : ComponentId) : Filed name (d.put (name c) c) where
  nodup := Directory.nodup_names_put h.nodup (name c) c
  named n b hb := by
    rw [← Directory.find?_eq_some_iff (Directory.nodup_names_put h.nodup (name c) c),
      Directory.find?_put] at hb
    split at hb
    next hn => exact hn ▸ Option.some.inj hb ▸ rfl
    next => exact h.name_of_find? hb

/-- Putting a child in takes out the one that had its name. -/
theorem Filed.mem_put (h : Filed name d) :
    c' ∈ (d.put (name c) c).values ↔ c' = c ∨ name c' ≠ name c ∧ c' ∈ d.values := by
  rw [(h.put c).mem_values, Directory.find?_put, h.mem_values]
  by_cases hn : name c = name c'
  · rw [if_pos hn, Option.some.injEq]
    have : ¬ name c' ≠ name c := fun hne => hne hn.symm
    simp only [this, false_and, or_false]
    exact eq_comm
  · have hne : c' ≠ c := fun he => hn (he ▸ rfl)
    simp [hn, hne, Ne.symm hn]

theorem Filed.mem_erase (h : Filed name d) (n : String) :
    c' ∈ (d.erase n).values ↔ name c' ≠ n ∧ c' ∈ d.values := by
  rw [(h.sublist (Directory.erase_sublist n d)).mem_values, Directory.find?_erase h.nodup,
    h.mem_values]
  by_cases hn : n = name c'
  · simp [hn]
  · simp [hn, Ne.symm hn]

/-- Erasing the name of a child takes out that child. -/
theorem Filed.mem_erase_of_find? (h : Filed name d) {n : String} (hf : d.find? n = some c) :
    c' ∈ (d.erase n).values ↔ c' ≠ c ∧ c' ∈ d.values := by
  rw [h.mem_erase n]
  refine and_congr_left fun hc => not_congr ⟨fun hn => ?_, ?_⟩
  · rw [h.mem_values, hn, hf] at hc
    exact (Option.some.inj hc).symm
  · rintro rfl
    exact (h.name_of_find? hf).symm

/-- Services look for the child itself, the others under its name. -/
theorem Component.without_children (p : Component) (n : String) (c : ComponentId) :
    (p.without n c).children = p.children.filter (fun e => e.2 ≠ c) ∨
      (p.without n c).children = if p.children.find? n = some c then p.children.erase n else p.children := by
  obtain ⟨kind, owner, children, alive⟩ := p
  cases kind with
  | service => exact .inl rfl
  | _ =>
    refine .inr ?_
    simp only [without]
    split <;> rfl

theorem Component.without_sublist (p : Component) (n : String) (c : ComponentId) :
    (p.without n c).children.Sublist p.children := by
  rcases p.without_children n c with h | h
  · rw [h]
    exact List.filter_sublist
  · rw [h]
    split
    · exact Directory.erase_sublist n p.children
    · exact .refl _

/-- Where children are under their names, both ways come to the same. -/
theorem Filed.mem_without {p : Component} (h : Filed name p.children) :
    c' ∈ Directory.values (p.without (name c) c).children ↔
      c' ≠ c ∧ c' ∈ Directory.values p.children := by
  rcases p.without_children (name c) c with hw | hw
  · rw [hw]
    simp only [Directory.values, List.mem_map, List.mem_filter, decide_eq_true_eq]
    constructor
    · rintro ⟨e, ⟨he, hne⟩, rfl⟩
      exact ⟨hne, e, he, rfl⟩
    · rintro ⟨hne, e, he, rfl⟩
      exact ⟨e, ⟨he, hne⟩, rfl⟩
  · rw [hw]
    split
    next hf => exact h.mem_erase_of_find? hf
    next hf =>
      refine ⟨fun hc => ⟨?_, hc⟩, And.right⟩
      rintro rfl
      exact hf (h.mem_values.1 hc)

theorem Component.updateDesk_keeps (p : Component) (f : Desk → Desk) :
    (p.updateDesk f).children = p.children ∧ (p.updateDesk f).owner = p.owner ∧
      (p.updateDesk f).alive = p.alive := by
  unfold updateDesk
  cases p.kind with
  | context desk => exact ⟨rfl, rfl, rfl⟩
  | _ => exact ⟨rfl, rfl, rfl⟩

theorem Component.without_keeps (p : Component) (n : String) (c : ComponentId) :
    (p.without n c).owner = p.owner ∧ (p.without n c).alive = p.alive := by
  unfold without
  cases p.kind with
  | service => exact ⟨rfl, rfl⟩
  | _ =>
    dsimp only
    split <;> exact ⟨rfl, rfl⟩

end

namespace Store

/-! ## Owners -/

/-- The slot of the child points at the parent. -/
def Owns (s : Store) (p c : ComponentId) : Prop := (s.component c).owner.isOwnedBy p = true

/-- A live parent has in its registry the children whose slots point at it. -/
structure Consistent (s : Store) : Prop where
  owned : ∀ p, s.isAlive p = true → ∀ c, c ∈ s.childIds p ↔ s.Owns p c
  filed : ∀ p, s.isAlive p = true → Filed s.name (s.component p).children
  aligned : s.board.names.length = s.components.size

/-- The parent owns the child, which is not in its registry yet, or is there already. -/
structure Claimed (s : Store) (p c : ComponentId) : Prop where
  owns : s.Owns p c
  free : ∀ q, s.isAlive q = true → q ≠ p → c ∉ s.childIds q
  others : ∀ q, s.isAlive q = true → ∀ d, d ≠ c → (d ∈ s.childIds q ↔ s.Owns q d)
  filed : ∀ q, s.isAlive q = true → Filed s.name (s.component q).children
  aligned : s.board.names.length = s.components.size

/-- At most owners have changed. -/
structure Unmoved (s t : Store) : Prop where
  children : ∀ q, (t.component q).children = (s.component q).children
  alive : ∀ q, t.isAlive q = s.isAlive q
  names : t.board.names = s.board.names
  size : t.components.size = s.components.size

variable {s t u : Store} {p q c d : ComponentId}

theorem name_eq_of_names (h : t.board.names = s.board.names) (c : ComponentId) : t.name c = s.name c := by
  rw [name, Board.name_eq, h, ← Board.name_eq, name]

theorem component_updateComponent (f : Component → Component) (d : ComponentId) :
    (s.updateComponent c f).component d =
      if c = d ∧ c < s.components.size then f (s.component d) else s.component d :=
  s.components.getD_update c d f default

/-- What a change keeps of the component it changes it keeps of all. -/
theorem updateComponent_keeps {α : Type} (g : Component → α) {f : Component → Component}
    (h : g (f (s.component c)) = g (s.component c)) (d : ComponentId) :
    g ((s.updateComponent c f).component d) = g (s.component d) := by
  rw [component_updateComponent]
  split
  next hd => exact hd.1 ▸ h
  next => rfl

theorem component_of_le (h : s.components.size ≤ c) : s.component c = default :=
  s.components.getD_of_le h default

theorem size_updateComponent (s : Store) (c : ComponentId) (f : Component → Component) :
    (s.updateComponent c f).components.size = s.components.size := Roster.size_update ..

theorem Owns.eq (h : s.Owns p c) (k : s.Owns q c) : p = q := by
  obtain ⟨o, ho, rfl⟩ := OwnerSlot.isOwnedBy_iff.1 h
  obtain ⟨o', ho', rfl⟩ := OwnerSlot.isOwnedBy_iff.1 k
  rw [ho] at ho'
  rw [Option.some.inj ho']

theorem Owns.lt (h : s.Owns p c) : c < s.components.size := by
  rcases Nat.lt_or_ge c s.components.size with hlt | hge
  · exact hlt
  · rw [Owns, component_of_le hge] at h
    cases h

theorem owns_congr (h : (t.component c).owner = (s.component c).owner) : t.Owns p c ↔ s.Owns p c := by
  rw [Owns, Owns, h]

namespace Unmoved

theorem refl (s : Store) : Unmoved s s := ⟨fun _ => rfl, fun _ => rfl, rfl, rfl⟩

theorem trans (h : Unmoved s t) (k : Unmoved t u) : Unmoved s u where
  children q := (k.children q).trans (h.children q)
  alive q := (k.alive q).trans (h.alive q)
  names := k.names.trans h.names
  size := k.size.trans h.size

theorem childIds (h : Unmoved s t) (q : ComponentId) : t.childIds q = s.childIds q := by
  rw [Store.childIds, h.children, Store.childIds]

theorem filed (h : Unmoved s t) (hf : Filed s.name (s.component q).children) :
    Filed t.name (t.component q).children := by
  rw [h.children]
  exact hf.congr fun c _ => name_eq_of_names h.names c

end Unmoved

theorem unmoved_setOwner (s : Store) (c : ComponentId) (slot : OwnerSlot) :
    Unmoved s (s.setOwner c slot) where
  children := updateComponent_keeps Component.children rfl
  alive := updateComponent_keeps Component.alive rfl
  names := rfl
  size := s.size_updateComponent c _

theorem unmoved_announceOwner (s : Store) (c : ComponentId) (previous current : Option String) :
    Unmoved s (s.announceOwner c previous current) :=
  ⟨fun _ => rfl, fun _ => rfl, Board.names_announce .., rfl⟩

theorem owns_setOwner (hc : c < s.components.size) (slot : OwnerSlot) :
    (s.setOwner c slot).Owns q d ↔ if d = c then slot.isOwnedBy q = true else s.Owns q d := by
  rw [Owns, setOwner, component_updateComponent]
  by_cases h : d = c
  · rw [if_pos ⟨h.symm, hc⟩, if_pos h]
  · rw [if_neg fun hh => h hh.1.symm, if_neg h, Owns]

/-- A release empties the slot of the child, if it points at the parent. -/
theorem release_eq (s : Store) (p c : ComponentId) :
    Unmoved s (s.release p c) ∧
      ∀ q d, (s.release p c).Owns q d ↔ s.Owns q d ∧ ¬ (q = p ∧ d = c) := by
  by_cases hown : s.Owns p c
  · obtain ⟨name, hr⟩ := OwnerSlot.release_of_owned hown
    have hrel : s.release p c = (s.setOwner c none).announceOwner c (some name) none := by
      rw [release_announces, hr]
    rw [hrel]
    refine ⟨(unmoved_setOwner s c none).trans (unmoved_announceOwner _ c _ none), fun q d => ?_⟩
    refine (owns_setOwner hown.lt none).trans ?_
    by_cases hd : d = c
    · subst hd
      rw [if_pos rfl]
      exact ⟨fun h => (by cases h), fun h => absurd ⟨h.1.eq hown, rfl⟩ h.2⟩
    · rw [if_neg hd]
      exact ⟨fun h => ⟨h, fun hh => hd hh.2⟩, And.left⟩
  · have hrel : s.release p c = s := by rw [release_announces, OwnerSlot.release_of_not_owned hown]
    rw [hrel]
    refine ⟨.refl s, fun q d => ⟨fun h => ⟨h, ?_⟩, And.left⟩⟩
    rintro ⟨rfl, rfl⟩
    exact hown h

/-! ## What keeps registries and slots consistent -/

theorem Consistent.lt (h : s.Consistent) (hq : s.isAlive q = true) (hd : d ∈ s.childIds q) :
    d < s.components.size := ((h.owned q hq d).1 hd).lt

/-- Registries and slots are the same, and nobody has come back to life or has another name. -/
theorem Consistent.congr (h : s.Consistent) (alive : ∀ q, t.isAlive q = true → s.isAlive q = true)
    (children : ∀ q, (t.component q).children = (s.component q).children)
    (owner : ∀ q, (t.component q).owner = (s.component q).owner)
    (name : ∀ c < s.components.size, t.name c = s.name c)
    (aligned : t.board.names.length = t.components.size) : t.Consistent where
  owned q hq d := by
    rw [childIds, children, owns_congr (owner d)]
    exact h.owned q (alive q hq) d
  filed q hq := by
    rw [children]
    exact (h.filed q (alive q hq)).congr fun c hc => name c (h.lt (alive q hq) hc)
  aligned := aligned

/-- Taking a child out of a registry and releasing it there. -/
theorem Consistent.takeOut (h : s.Consistent) {f : Component → Component}
    (owner : (f (s.component p)).owner = (s.component p).owner)
    (alive : (f (s.component p)).alive = (s.component p).alive)
    (sub : (f (s.component p)).children.Sublist (s.component p).children)
    (mem : s.isAlive p = true → ∀ d, d ∈ Directory.values (f (s.component p)).children ↔
      d ≠ c ∧ d ∈ s.childIds p) :
    ((s.updateComponent p f).release p c).Consistent := by
  obtain ⟨hu, ho⟩ := (s.updateComponent p f).release_eq p c
  have howner := updateComponent_keeps Component.owner owner
  have halive := updateComponent_keeps Component.alive alive
  refine ⟨fun q hq d => ?_, fun q hq => hu.filed ?_, ?_⟩
  · rw [hu.alive, isAlive, halive] at hq
    rw [hu.childIds, ho, owns_congr (howner d), ← h.owned q hq, childIds, component_updateComponent]
    by_cases hp : p = q ∧ p < s.components.size
    · rw [if_pos hp]
      obtain ⟨rfl, -⟩ := hp
      rw [mem hq d, and_comm]
      simp
    · rw [if_neg hp]
      refine ⟨fun hd => ⟨hd, ?_⟩, And.left⟩
      rintro ⟨rfl, rfl⟩
      have hge : s.components.size ≤ q := Nat.le_of_not_lt fun hlt => hp ⟨rfl, hlt⟩
      rw [component_of_le hge] at hd
      cases hd
  · rw [hu.alive, isAlive, halive] at hq
    refine (h.filed q hq).sublist ?_
    rw [component_updateComponent]
    split
    next hp => exact hp.1 ▸ sub
    next => exact .refl _
  · rw [hu.names, hu.size, size_updateComponent]
    exact h.aligned

theorem Consistent.detach (h : s.Consistent) (hp : s.isAlive p = true) (c : ComponentId) :
    (s.detach p c).Consistent :=
  h.takeOut (Component.without_keeps ..).1 (Component.without_keeps ..).2
    (Component.without_sublist ..) fun _ _ => (h.filed p hp).mem_without

theorem Consistent.detachElsewhere (h : s.Consistent) (p c : ComponentId) :
    (s.detachElsewhere p c).Consistent := by
  unfold Store.detachElsewhere
  cases ho : s.owner? c with
  | none => exact h
  | some o =>
    dsimp only
    split
    · exact h
    · exact h.detach (OwnerSlot.live_eq_some_iff.1 ho).2 c

theorem Consistent.remove (h : s.Consistent) (p : ComponentId) (n : String) :
    (s.remove p n).1.Consistent := by
  unfold Store.remove
  cases hc : s.child? p n with
  | none => exact h
  | some c =>
    exact h.takeOut (f := fun d => { d with children := d.children.erase n }) rfl rfl
      (Directory.erase_sublist ..) fun hp _ => (h.filed p hp).mem_erase_of_find? hc

/-- A claim that is refused changes nothing; after one that is not, the child is on its way. -/
theorem Consistent.claim (h : s.Consistent) (hc : c < s.components.size) :
    (∃ f, s.claim p c = (s, .error f)) ∨
      ∃ b t, s.claim p c = (t, .ok b) ∧ t.Claimed p c ∧ t.components.size = s.components.size := by
  rw [Store.claim_announces]
  cases hcl : (s.component c).owner.claim s.isAlive (s.state c) ⟨s.name p, p⟩ with
  | error reason => exact .inl ⟨_, rfl⟩
  | ok new =>
    refine .inr ?_
    rcases OwnerSlot.claim_ok hcl with ⟨rfl, hown⟩ | ⟨rfl, hlive⟩
    · refine ⟨false, s, rfl, ⟨hown, ?_, fun q hq d _ => h.owned q hq d, h.filed, h.aligned⟩, rfl⟩
      intro q hq hqp hd
      exact hqp (Owns.eq ((h.owned q hq c).1 hd) hown)
    · have hu := (s.unmoved_setOwner c (some ⟨s.name p, p⟩)).trans
        (unmoved_announceOwner _ c none (some (s.name p)))
      have ho : ∀ q d, ((s.setOwner c (some ⟨s.name p, p⟩)).announceOwner c none
          (some (s.name p))).Owns q d ↔ _ := fun q d => owns_setOwner hc _
      refine ⟨true, _, rfl, ⟨?_, ?_, ?_, ?_, ?_⟩, hu.size⟩
      · rw [ho, if_pos rfl]
        exact OwnerSlot.isOwnedBy_iff.2 ⟨_, rfl, rfl⟩
      · intro q hq _ hd
        rw [hu.alive] at hq
        rw [hu.childIds, h.owned q hq] at hd
        obtain ⟨o, hs, rfl⟩ := OwnerSlot.isOwnedBy_iff.1 hd
        rw [OwnerSlot.live_eq_some_iff.2 ⟨hs, hq⟩] at hlive
        cases hlive
      · intro q hq d hd
        rw [hu.alive] at hq
        rw [hu.childIds, ho, if_neg hd]
        exact h.owned q hq d
      · intro q hq
        rw [hu.alive] at hq
        exact hu.filed (h.filed q hq)
      · rw [hu.names, hu.size]
        exact h.aligned

theorem rival?_eq_some_iff (h : Filed s.name (s.component p).children) (hd : d ∈ s.childIds p)
    (hne : d ≠ c) : s.rival? p c = some d ↔ s.name d = s.name c := by
  rw [rival?, Option.filter_eq_some_iff, child?]
  refine ⟨fun hf => (h.name_of_find? hf.1).symm, fun hn => ⟨?_, by simpa using hne⟩⟩
  rw [← hn]
  exact h.mem_values.1 hd

/-- With the claimed child put in, the parent has all it owns but the one that is replaced. -/
theorem Claimed.mem_put (h : s.Claimed p c) (hp : s.isAlive p = true) :
    d ∈ Directory.values ((s.component p).children.put (s.name c) c) ↔
      s.Owns p d ∧ s.rival? p c ≠ some d := by
  rw [(h.filed p hp).mem_put]
  by_cases hd : d = c
  · subst hd
    have hnot : s.rival? p d ≠ some d := by simp [rival?, Option.filter_eq_some_iff]
    exact iff_of_true (.inl rfl) ⟨h.owns, hnot⟩
  · rw [← h.others p hp d hd]
    constructor
    · rintro (hdc | ⟨hn, hm⟩)
      · exact absurd hdc hd
      · exact ⟨hm, fun hr => hn ((rival?_eq_some_iff (h.filed p hp) hm hd).1 hr)⟩
    · rintro ⟨hm, hr⟩
      exact .inr ⟨fun hn => hr ((rival?_eq_some_iff (h.filed p hp) hm hd).2 hn), hm⟩

/-- Another parent has what it owns, and the claimed child is not among it. -/
theorem Claimed.owned (h : s.Claimed p c) (hq : s.isAlive q = true) (hqp : q ≠ p) :
    d ∈ s.childIds q ↔ s.Owns q d := by
  by_cases hd : d = c
  · subst hd
    exact iff_of_false (h.free q hq hqp) fun hown => hqp (hown.eq h.owns)
  · exact h.others q hq d hd

/-- Putting the claimed child in and releasing the one it replaces. -/
theorem Claimed.put (h : s.Claimed p c) (hp : p < s.components.size)
    (hu : Unmoved (s.putChild p c) t)
    (ho : ∀ q d, t.Owns q d ↔ s.Owns q d ∧ ¬ (q = p ∧ s.rival? p c = some d)) :
    t.Consistent := by
  have halive : ∀ q, (s.putChild p c).isAlive q = s.isAlive q :=
    updateComponent_keeps Component.alive rfl
  have hcomp : ∀ q, ((s.putChild p c).component q).children =
      if q = p then (s.component q).children.put (s.name c) c else (s.component q).children := by
    intro q
    rw [putChild, component_updateComponent]
    by_cases hq : q = p
    · rw [if_pos ⟨hq.symm, hp⟩, if_pos hq]
    · rw [if_neg fun hh => hq hh.1.symm, if_neg hq]
  refine ⟨fun q hq d => ?_, fun q hq => hu.filed ?_, ?_⟩
  · rw [hu.alive, halive] at hq
    rw [hu.childIds, ho, childIds, hcomp]
    by_cases hqp : q = p
    · subst hqp
      rw [if_pos rfl, h.mem_put hq]
      simp
    · rw [if_neg hqp]
      refine (h.owned hq hqp).trans ⟨fun hown => ⟨hown, fun hh => hqp hh.1⟩, And.left⟩
  · rw [hu.alive, halive] at hq
    rw [hcomp]
    split
    · exact (h.filed q hq).put c
    · exact h.filed q hq
  · rw [hu.names, hu.size, putChild, size_updateComponent]
    exact h.aligned

theorem size_detachElsewhere (s : Store) (p c : ComponentId) :
    (s.detachElsewhere p c).components.size = s.components.size := by
  unfold Store.detachElsewhere
  cases s.owner? c with
  | none => rfl
  | some o =>
    dsimp only
    split
    · rfl
    · exact (release_eq _ o.parent c).1.size.trans (s.size_updateComponent o.parent _)

/-- Adding a child, whether it is taken from another owner, replaces one of its name, is there
already or is refused. -/
theorem Consistent.add (h : s.Consistent) (hp : p < s.components.size) (hc : c < s.components.size) :
    (s.add p c).1.Consistent := by
  rw [← s.size_detachElsewhere p c] at hp hc
  have hd := h.detachElsewhere p c
  unfold Store.add
  generalize s.detachElsewhere p c = u at *
  rcases hd.claim (p := p) hc with ⟨f, hf⟩ | ⟨b, t, ht, hcl, hsize⟩
  · rw [hf]
    exact hd
  · rw [ht]
    have howns : ∀ q d, (t.putChild p c).Owns q d ↔ t.Owns q d := fun q d =>
      owns_congr (updateComponent_keeps Component.owner rfl d)
    dsimp only
    cases hr : t.rival? p c with
    | none =>
      refine hcl.put (hsize ▸ hp) (.refl _) fun q d => ?_
      rw [howns, hr]
      simp
    | some old =>
      obtain ⟨hu, ho⟩ := (t.putChild p c).release_eq p old
      refine hcl.put (hsize ▸ hp) hu fun q d => ?_
      rw [ho, howns, hr, Option.some.injEq]
      exact and_congr_right fun _ => not_congr (and_congr_right fun _ => eq_comm)

/-- Whatever happens on the board, as long as names stay. -/
theorem Consistent.setBoard (h : s.Consistent) {b : Board} (hb : b.names = s.board.names) :
    Consistent { s with board := b } :=
  h.congr (fun _ hq => hq) (fun _ => rfl) (fun _ => rfl) (fun c _ => name_eq_of_names hb c)
    ((congrArg List.length hb).trans h.aligned)

theorem Consistent.bury (h : s.Consistent) (c : ComponentId) : (s.bury c).Consistent := by
  refine h.congr (fun q hq => ?_) (updateComponent_keeps Component.children rfl)
    (updateComponent_keeps Component.owner rfl) (fun _ _ => rfl) ?_
  · rw [isAlive, Store.bury, component_updateComponent] at hq
    split at hq
    · cases hq
    · exact hq
  · rw [Store.bury, size_updateComponent]
    exact h.aligned

theorem Consistent.sweep (h : s.Consistent) (roots : List ComponentId)
    (holds : List (ComponentId × ComponentId)) : (s.sweep roots holds).Consistent := by
  refine List.foldlRecOn _ _ h fun t ht c _ => ?_
  split
  · exact ht.bury c
  · exact ht

theorem Consistent.settle (h : s.Consistent) (roots : List ComponentId)
    (holds : List (ComponentId × ComponentId)) : (s.settle roots holds).Consistent := by
  unfold Store.settle
  generalize s.components.size = n
  induction n generalizing s with
  | zero => exact h
  | succ n ih => exact ih (h.sweep roots holds)

theorem Consistent.updateDesk (h : s.Consistent) (c : ComponentId) (f : Desk → Desk) :
    (s.updateDesk c f).Consistent := by
  have hkeep := (s.component c).updateDesk_keeps f
  refine h.congr (fun q hq => ?_) (updateComponent_keeps Component.children hkeep.1)
    (updateComponent_keeps Component.owner hkeep.2.1) (fun _ _ => rfl) ?_
  · rw [isAlive, Store.updateDesk, updateComponent_keeps Component.alive hkeep.2.2] at hq
    exact hq
  · rw [Store.updateDesk, size_updateComponent]
    exact h.aligned

/-- The default component, which is read where there is none, is like a new one in all that counts. -/
theorem addComponent_keeps {α : Type} (g : Component → α) (name : String) (kind : Kind)
    (hg : g { kind } = g default) (q : ComponentId) :
    g ((s.addComponent name kind).1.component q) = g (s.component q) := by
  show g ((s.components.add { kind }).getD q default) = g (s.components.getD q default)
  rw [Roster.getD, Roster.get?_add, Roster.getD]
  by_cases hq : q = s.components.size
  · rw [if_pos hq, hq, ← Roster.getD, s.components.getD_of_le (Nat.le_refl _)]
    exact hg
  · rw [if_neg hq]

/-- A new component has no children, and no slot points at it. -/
theorem Consistent.addComponent (h : s.Consistent) (name : String) (kind : Kind) :
    (s.addComponent name kind).1.Consistent := by
  have halive : ∀ q, (s.addComponent name kind).1.isAlive q = s.isAlive q :=
    addComponent_keeps Component.alive name kind rfl
  refine h.congr (fun q hq => halive q ▸ hq) (addComponent_keeps _ name kind rfl)
    (addComponent_keeps _ name kind rfl) (fun c hc => ?_) ?_
  · show (s.board.add name _).1.name c = s.board.name c
    rw [Board.name_eq, Board.names_add, List.getElem?_append_left (h.aligned ▸ hc), ← Board.name_eq]
  · show (s.board.add name _).1.names.length = (s.components.add _).size
    rw [Board.names_add, Roster.size_add, List.length_append, h.aligned]
    rfl

end Store

/-! ## Moves on the tree -/

/-- What can be done to components. A phase comes to a request, what its hook does on desks and
beside the tree, and another request or a failure. -/
inductive Move where
  | make (name : String) (kind : Kind)
  | add (parent child : ComponentId)
  | remove (parent : ComponentId) (name : String)
  /-- A component is dropped. -/
  | bury (c : ComponentId)
  /-- All components are dropped that nothing holds. -/
  | settle (roots : List ComponentId) (holds : List (ComponentId × ComponentId))
  | request (c : ComponentId) (target : State)
  | fail (c : ComponentId)
  | subscribe (c : ComponentId) (listener : Subscription)
  | unsubscribe (c : ComponentId) (listener : ListenerId)
  | desk (c : ComponentId) (f : Desk → Desk)
  /-- Everything but the tree and the lifecycles becomes what it is in another store. -/
  | beside (other : Store)

/-- Carries a move out. Components of whatever kinds can be added to one another, once they have
been made. -/
def Move.apply (s : Store) : Move → Store
  | make name kind => (s.addComponent name kind).1
  | add parent child =>
    if parent < s.components.size ∧ child < s.components.size then (s.add parent child).1 else s
  | remove parent name => (s.remove parent name).1
  | bury c => s.bury c
  | settle roots holds => s.settle roots holds
  | request c target => { s with board := (s.board.request c target).1 }
  | fail c => { s with board := s.board.fail c }
  | subscribe c listener => { s with board := s.board.subscribe c listener }
  | unsubscribe c listener => { s with board := (s.board.unsubscribe c listener).1 }
  | desk c f => s.updateDesk c f
  | beside other => { other with board := s.board, components := s.components }

theorem Store.Consistent.move {s : Store} (h : s.Consistent) (m : Move) : (m.apply s).Consistent := by
  cases m with
  | make name kind => exact h.addComponent name kind
  | add parent child =>
    show (if parent < s.components.size ∧ child < s.components.size then (s.add parent child).1
      else s).Consistent
    split
    next hm => exact h.add hm.1 hm.2
    next => exact h
  | remove parent name => exact h.remove parent name
  | bury c => exact h.bury c
  | settle roots holds => exact h.settle roots holds
  | request c target => exact h.setBoard (Board.names_request ..)
  | fail c => exact h.setBoard (Board.names_fail ..)
  | subscribe c listener => exact h.setBoard (Board.names_update _ _ fun _ => rfl)
  | unsubscribe c listener => exact h.setBoard (Board.names_update _ _ fun _ => rfl)
  | desk c f => exact h.updateDesk c f
  | beside other =>
    exact h.congr (fun _ hq => hq) (fun _ => rfl) (fun _ => rfl) (fun _ _ => rfl) h.aligned

theorem Store.consistent_empty : ({} : Store).Consistent where
  owned _ _ _ := iff_of_false List.not_mem_nil Bool.false_ne_true
  filed _ _ := ⟨.nil, fun _ _ h => (List.not_mem_nil h).elim⟩
  aligned := rfl

/-- What a sequence of moves makes of nothing. -/
def Move.run (moves : List Move) : Store := moves.foldl Move.apply {}

theorem Move.run_consistent (moves : List Move) : (run moves).Consistent :=
  List.foldlRecOn moves Move.apply Store.consistent_empty fun _ hs m _ => hs.move m

/-- After any moves, carried out or refused, a child is in the registry of a live parent exactly
when its slot points at that parent. So it is in one registry at most, where it stands under its
own name, and no name stands twice. -/
theorem Move.run_owned (moves : List Move) (p : ComponentId) (hp : (run moves).isAlive p = true) :
    (∀ c, c ∈ (run moves).childIds p ↔ (run moves).Owns p c) ∧
    (∀ c q, (run moves).isAlive q = true → c ∈ (run moves).childIds p →
      c ∈ (run moves).childIds q → p = q) ∧
    (Directory.names ((run moves).component p).children).Nodup ∧
    ∀ n c, (n, c) ∈ ((run moves).component p).children → n = (run moves).name c := by
  have h := run_consistent moves
  refine ⟨h.owned p hp, fun c q hq hcp hcq => ?_, (h.filed p hp).nodup, (h.filed p hp).named⟩
  exact Store.Owns.eq ((h.owned p hp c).1 hcp) ((h.owned q hq c).1 hcq)

/-- A second service takes a context over and keeps it when the first is gone. -/
def sampleMoves : List Move :=
  [.make "first" .service, .make "second" .service,
    .make "echo" (.context { request := .any, response := .any }),
    .add 0 2, .add 1 2, .request 2 .destroying, .bury 0]

theorem Move.run_owned_sample : 2 ∈ (run sampleMoves).childIds 1 ∧ ¬ (run sampleMoves).Owns 0 2 := by
  obtain ⟨howned, -⟩ := run_owned sampleMoves 1 rfl
  exact ⟨(howned 2).2 rfl, Bool.false_ne_true⟩

end Switchboard.Container
