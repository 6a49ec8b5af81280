import Mathlib.Logic.Relation
import Switchboard.Topology.Record

/-!
# Topologies read back

A topology is read back from the JSON that it is written to, and as well from JSON
that says less or more: an edit leaves out a field that has its default value, or
adds a field that the record does not know, in an object or in a part of it. There
is no edit of parameters, whose names are all known. Each level has its edits; they
do not change what is read there, and what is written there is read back. For a
domain the rest is an induction on the number of edits.
-/

namespace Switchboard

namespace Json

/-! ## Edits of JSON -/

/-- One edit of an object with fields that are known, fields that have defaults, and parts that can be
edited in turn. -/
inductive FieldEdit (known : List String) (defaults : List (String × Json))
    (parts : List (String × (Json → Json → Prop))) : Json → Json → Prop
  | drop {fields : List (String × Json)} {value : Json} (name : String) :
      Keyed.find? name fields = some value → (name, value) ∈ defaults →
      FieldEdit known defaults parts (.object fields) (.object (fields.filter (·.1 ≠ name)))
  | add {fields : List (String × Json)} (name : String) (value : Json) : name ∉ known →
      FieldEdit known defaults parts (.object fields) (.object (Keyed.insert name value fields))
  | within {fields : List (String × Json)} {edit : Json → Json → Prop} {v w : Json} (name : String) :
      Keyed.find? name fields = some v → (name, edit) ∈ parts → edit v w →
      FieldEdit known defaults parts (.object fields) (.object (Keyed.insert name w fields))

/-- One edit of one item of an array. -/
inductive ItemEdit (edit : Json → Json → Prop) : Json → Json → Prop
  | mk (before after : List Json) {v w : Json} : edit v w →
      ItemEdit edit (.array (before ++ v :: after)) (.array (before ++ w :: after))

section

variable {known : List String} {defaults : List (String × Json)}
  {parts : List (String × (Json → Json → Prop))} {fs gs : List (String × Json)} {name : String}
  {v w : Json} {α : Type} {read : Json → Option α}

theorem FieldEdit.objects (h : FieldEdit known defaults parts v w) :
    ∃ fs gs, v = .object fs ∧ w = .object gs := by
  cases h with
  | drop | add | within => exact ⟨_, _, rfl, rfl⟩

/-- Reading a known field comes to the same, if it makes no difference between the default and nothing
and none between a part and the part edited. -/
theorem FieldEdit.get_eq (h : FieldEdit known defaults parts (.object fs) (.object gs))
    (hk : name ∈ known) (get : Option Json → Option α)
    (hd : ∀ v, (name, v) ∈ defaults → get (some v) = get none)
    (hp : ∀ edit, (name, edit) ∈ parts → ∀ v w, edit v w → get (some w) = get (some v)) :
    get (Keyed.find? name gs) = get (Keyed.find? name fs) := by
  cases h with
  | @drop _ value key hfind hdefault =>
    rw [Keyed.find?_filter_ne]
    split
    next heq =>
      subst heq
      rw [hfind, hd value hdefault]
    next => rfl
  | @add _ key value hunknown =>
    rw [Keyed.find?_insert, if_neg fun heq : key = name => hunknown (heq ▸ hk)]
  | @within _ edit v w key hfind hpart hedit =>
    rw [Keyed.find?_insert]
    split
    next heq =>
      subst heq
      rw [hfind, hp edit hpart v w hedit]
    next => rfl

theorem FieldEdit.required_eq (h : FieldEdit known defaults parts (.object fs) (.object gs))
    (hk : name ∈ known) (hd : ∀ v, (name, v) ∉ defaults) (hp : ∀ edit, (name, edit) ∉ parts) :
    required read name gs = required read name fs :=
  h.get_eq hk (·.bind read) (fun v hv => absurd hv (hd v)) fun edit he => absurd he (hp edit)

theorem FieldEdit.defaulted_eq {fallback : α}
    (h : FieldEdit known defaults parts (.object fs) (.object gs)) (hk : name ∈ known)
    (hd : ∀ v, (name, v) ∈ defaults → read v = some fallback)
    (hp : ∀ edit, (name, edit) ∈ parts → ∀ v w, edit v w → read w = read v) :
    defaulted fallback read name gs = defaulted fallback read name fs := by
  have hget (fields : List (String × Json)) :
      defaulted fallback read name fields = (Keyed.find? name fields).elim (some fallback) read := by
    unfold defaulted
    cases Keyed.find? name fields <;> rfl
  rw [hget, hget]
  exact h.get_eq hk (·.elim (some fallback) read) hd hp

theorem ItemEdit.list?_eq {edit : Json → Json → Prop} (h : ItemEdit edit v w)
    (hr : ∀ v w, edit v w → read w = read v) : list? read w = list? read v := by
  obtain ⟨before, after, hedit⟩ := h
  simp only [list?, List.mapM_append, List.mapM_cons, hr _ _ hedit]

/-- A field for a list that is empty by default and whose items can be edited. -/
theorem FieldEdit.list_eq {edit : Json → Json → Prop}
    (h : FieldEdit known defaults parts (.object fs) (.object gs)) (hk : name ∈ known)
    (hd : ∀ v, (name, v) ∈ defaults → v = .array [])
    (hp : ∀ e, (name, e) ∈ parts → e = ItemEdit edit) (hr : ∀ v w, edit v w → read w = read v) :
    defaulted [] (list? read) name gs = defaulted [] (list? read) name fs := by
  refine h.defaulted_eq hk (fun v hv => ?_) fun e he v w hedit => ?_
  · rw [hd v hv]
    rfl
  · rw [hp e he] at hedit
    exact hedit.list?_eq hr

/-! ## Reading what was written -/

theorem required_ofList (h : (fs.map Prod.fst).Nodup) (hm : (name, v) ∈ fs) :
    required read name (Keyed.ofList fs) = read v := by
  rw [required, Keyed.find?_ofList h, Keyed.find?_of_mem h hm, Option.bind_some]

theorem defaulted_ofList {fallback : α} (h : (fs.map Prod.fst).Nodup) (hm : (name, v) ∈ fs) :
    defaulted fallback read name (Keyed.ofList fs) = read v := by
  rw [defaulted, Keyed.find?_ofList h, Keyed.find?_of_mem h hm]

theorem mapM_map_eq_some {β : Type} {read : β → Option α} {write : α → β}
    (h : ∀ a, read (write a) = some a) (as : List α) : (as.map write).mapM read = some as := by
  induction as with
  | nil => rfl
  | cons a as ih =>
    simp only [List.map_cons, List.mapM_cons, h, ih, Option.bind_eq_bind, Option.bind_some, Option.pure_def]

theorem list?_map {write : α → Json} (h : ∀ a, read (write a) = some a) (as : List α) :
    list? read (.array (as.map write)) = some as :=
  mapM_map_eq_some h as

end

theorem optionalText?_ofText? (s : Option String) : optionalText? (ofText? s) = some s := by
  cases s <;> rfl

theorem count?_int {n : Nat} (h : n < Width.wordLimit) : count? (.int n) = some n := by
  have hword : Width.isWord n = true := by
    simp only [Width.isWord, Bool.and_eq_true, decide_eq_true_eq]
    omega
  simp only [count?, hword, if_true, Int.toNat_natCast]

theorem texts?_ofTextFields {entries : List (String × String)} (h : Keyed.Sorted entries) :
    texts? (ofTextFields entries) = some entries := by
  have hs : Keyed.Sorted (entries.map fun e => (e.1, string e.2)) := List.pairwise_map.2 h
  show (ofFields (entries.map fun e => (e.1, string e.2))).texts? = some entries
  rw [ofFields, hs.ofList_eq, texts?]
  refine mapM_map_eq_some ?_ entries
  exact fun e => rfl

end Json

/-! ## Settings -/

namespace Settings

/-- The counts are whole numbers of 64 bits. -/
def InRange (s : Settings) : Prop :=
  s.pollRetries < Width.wordLimit ∧ s.pollInterval < Width.wordLimit

instance (s : Settings) : Decidable s.InRange := inferInstanceAs (Decidable (_ ∧ _))

def Edit : Json → Json → Prop :=
  Json.FieldEdit fieldNames [("lifecycle_poll_retries", .int 50),
    ("lifecycle_poll_interval_ms", .int 100), ("restricted_param", .string "restricted")] []

variable {surplus : Json.Surplus} {v w : Json}

theorem ofJson?_of_edit (h : Edit v w) : ofJson? surplus w = ofJson? surplus v := by
  obtain ⟨fs, gs, rfl, rfl⟩ := h.objects
  have hretries : Json.defaulted 50 Json.count? "lifecycle_poll_retries" gs =
      Json.defaulted 50 Json.count? "lifecycle_poll_retries" fs :=
    h.defaulted_eq (by decide) (by simpa using Json.count?_int (n := 50) (by decide)) (by simp)
  have hinterval : Json.defaulted 100 Json.count? "lifecycle_poll_interval_ms" gs =
      Json.defaulted 100 Json.count? "lifecycle_poll_interval_ms" fs :=
    h.defaulted_eq (by decide) (by simpa using Json.count?_int (n := 100) (by decide)) (by simp)
  have hparam : Json.defaulted "restricted" Json.text? "restricted_param" gs =
      Json.defaulted "restricted" Json.text? "restricted_param" fs :=
    h.defaulted_eq (by decide) (by simp [Json.text?]) (by simp)
  simp only [ofJson?, Json.record?, Option.bind_eq_bind, Option.bind_some, hretries, hinterval, hparam]

theorem ofJson?_toJson {s : Settings} (h : s.InRange) : ofJson? surplus s.toJson = some s := by
  rw [toJson, ofJson?, Json.ofFields, Json.record?, Option.bind_eq_bind, Option.bind_some,
    Json.defaulted_ofList (by simp) (.head _), Json.defaulted_ofList (by simp) (.tail _ (.head _)),
    Json.defaulted_ofList (by simp) (.tail _ (.tail _ (.head _))), Json.count?_int h.1,
    Json.count?_int h.2]
  rfl

end Settings

namespace Topology

variable {surplus : Json.Surplus} {v w : Json}

theorem params?_ofTextFields (p : Params) : params? (.ofTextFields p.entries) = some p := by
  rw [params?, Json.texts?_ofTextFields p.sorted, Option.map_some, Params.ofList]
  simp only [p.sorted.ofList_eq]

theorem params?_empty : params? (.object []) = some .empty := rfl

/-! ## Handlers -/

namespace Handler

def Edit : Json → Json → Prop :=
  Json.FieldEdit fieldNames [("params", .object []), ("load_on_startup", .bool false),
    ("unavailable", .bool false), ("hook", .null)] []

theorem ofJson?_of_edit (h : Edit v w) : ofJson? surplus w = ofJson? surplus v := by
  obtain ⟨fs, gs, rfl, rfl⟩ := h.objects
  have hname : Json.required Json.text? "name" gs = Json.required Json.text? "name" fs :=
    h.required_eq (by decide) (by simp) (by simp)
  have hclass : Json.required Json.text? "class" gs = Json.required Json.text? "class" fs :=
    h.required_eq (by decide) (by simp) (by simp)
  have hparams : Json.defaulted .empty params? "params" gs = Json.defaulted .empty params? "params" fs :=
    h.defaulted_eq (by decide) (by simp [params?_empty]) (by simp)
  have hload : Json.defaulted false Json.bool? "load_on_startup" gs =
      Json.defaulted false Json.bool? "load_on_startup" fs :=
    h.defaulted_eq (by decide) (by simp [Json.bool?]) (by simp)
  have hunavailable : Json.defaulted false Json.bool? "unavailable" gs =
      Json.defaulted false Json.bool? "unavailable" fs :=
    h.defaulted_eq (by decide) (by simp [Json.bool?]) (by simp)
  have hhook : Json.defaulted none Json.optionalText? "hook" gs =
      Json.defaulted none Json.optionalText? "hook" fs :=
    h.defaulted_eq (by decide) (by simp [Json.optionalText?]) (by simp)
  simp only [ofJson?, Json.record?, Option.bind_eq_bind, Option.bind_some, hname, hclass, hparams, hload,
    hunavailable, hhook]

theorem ofJson?_toJson (h : Handler) : ofJson? surplus h.toJson = some h := by
  simp [toJson, ofJson?, Json.ofFields, Json.record?, Json.required, Json.defaulted, Json.text?,
    Json.bool?, Json.optionalText?_ofText?, params?_ofTextFields, Keyed.find?_ofList, Keyed.find?]

end Handler

/-! ## Contexts -/

namespace Context

def Edit : Json → Json → Prop :=
  Json.FieldEdit fieldNames [("default_handler", .null), ("handler", .array [])]
    [("handler", Json.ItemEdit Handler.Edit)]

theorem ofJson?_of_edit (h : Edit v w) : ofJson? surplus w = ofJson? surplus v := by
  obtain ⟨fs, gs, rfl, rfl⟩ := h.objects
  have hname : Json.required Json.text? "name" gs = Json.required Json.text? "name" fs :=
    h.required_eq (by decide) (by simp) (by simp)
  have hrequest : Json.required Json.text? "request_type" gs = Json.required Json.text? "request_type" fs :=
    h.required_eq (by decide) (by simp) (by simp)
  have hresponse : Json.required Json.text? "response_type" gs =
      Json.required Json.text? "response_type" fs :=
    h.required_eq (by decide) (by simp) (by simp)
  have hdefault : Json.defaulted none Json.optionalText? "default_handler" gs =
      Json.defaulted none Json.optionalText? "default_handler" fs :=
    h.defaulted_eq (by decide) (by simp [Json.optionalText?]) (by simp)
  have hhandlers : Json.defaulted [] (Json.list? (Handler.ofJson? surplus)) "handler" gs =
      Json.defaulted [] (Json.list? (Handler.ofJson? surplus)) "handler" fs :=
    h.list_eq (by decide) (by simp) (by simp) fun _ _ => Handler.ofJson?_of_edit
  simp only [ofJson?, Json.record?, Option.bind_eq_bind, Option.bind_some, hname, hrequest, hresponse,
    hdefault, hhandlers]

theorem ofJson?_toJson (c : Context) : ofJson? surplus c.toJson = some c := by
  simp [toJson, ofJson?, Json.ofFields, Json.record?, Json.required, Json.defaulted, Json.text?,
    Json.optionalText?_ofText?, Json.list?_map Handler.ofJson?_toJson, Keyed.find?_ofList, Keyed.find?]

end Context

/-! ## Services and servers -/

namespace Service

def Edit : Json → Json → Prop :=
  Json.FieldEdit fieldNames [("context", .array [])] [("context", Json.ItemEdit Context.Edit)]

theorem ofJson?_of_edit (h : Edit v w) : ofJson? surplus w = ofJson? surplus v := by
  obtain ⟨fs, gs, rfl, rfl⟩ := h.objects
  have hname : Json.required Json.text? "name" gs = Json.required Json.text? "name" fs :=
    h.required_eq (by decide) (by simp) (by simp)
  have hcontexts : Json.defaulted [] (Json.list? (Context.ofJson? surplus)) "context" gs =
      Json.defaulted [] (Json.list? (Context.ofJson? surplus)) "context" fs :=
    h.list_eq (by decide) (by simp) (by simp) fun _ _ => Context.ofJson?_of_edit
  simp only [ofJson?, Json.record?, Option.bind_eq_bind, Option.bind_some, hname, hcontexts]

theorem ofJson?_toJson (s : Service) : ofJson? surplus s.toJson = some s := by
  simp [toJson, ofJson?, Json.ofFields, Json.record?, Json.required, Json.defaulted, Json.text?,
    Json.list?_map Context.ofJson?_toJson, Keyed.find?_ofList, Keyed.find?]

end Service

namespace Server

def Edit : Json → Json → Prop :=
  Json.FieldEdit fieldNames [("service", .array [])] [("service", Json.ItemEdit Service.Edit)]

theorem ofJson?_of_edit (h : Edit v w) : ofJson? surplus w = ofJson? surplus v := by
  obtain ⟨fs, gs, rfl, rfl⟩ := h.objects
  have hname : Json.required Json.text? "name" gs = Json.required Json.text? "name" fs :=
    h.required_eq (by decide) (by simp) (by simp)
  have hservices : Json.defaulted [] (Json.list? (Service.ofJson? surplus)) "service" gs =
      Json.defaulted [] (Json.list? (Service.ofJson? surplus)) "service" fs :=
    h.list_eq (by decide) (by simp) (by simp) fun _ _ => Service.ofJson?_of_edit
  simp only [ofJson?, Json.record?, Option.bind_eq_bind, Option.bind_some, hname, hservices]

theorem ofJson?_toJson (s : Server) : ofJson? surplus s.toJson = some s := by
  simp [toJson, ofJson?, Json.ofFields, Json.record?, Json.required, Json.defaulted, Json.text?,
    Json.list?_map Service.ofJson?_toJson, Keyed.find?_ofList, Keyed.find?]

end Server

/-! ## Domains -/

namespace Domain

def Edit : Json → Json → Prop :=
  Json.FieldEdit fieldNames [("config", Settings.toJson {}), ("server", .array [])]
    [("config", Settings.Edit), ("server", Json.ItemEdit Server.Edit)]

theorem ofJson?_of_edit (h : Edit v w) : ofJson? surplus w = ofJson? surplus v := by
  obtain ⟨fs, gs, rfl, rfl⟩ := h.objects
  have hname : Json.required Json.text? "name" gs = Json.required Json.text? "name" fs :=
    h.required_eq (by decide) (by simp) (by simp)
  have hsettings : Json.defaulted {} (Settings.ofJson? surplus) "config" gs =
      Json.defaulted {} (Settings.ofJson? surplus) "config" fs :=
    h.defaulted_eq (by decide) (by simpa using Settings.ofJson?_toJson (s := {}) (by decide))
      (by simpa using fun v w => Settings.ofJson?_of_edit)
  have hservers : Json.defaulted [] (Json.list? (Server.ofJson? surplus)) "server" gs =
      Json.defaulted [] (Json.list? (Server.ofJson? surplus)) "server" fs :=
    h.list_eq (by decide) (by simp) (by simp) fun _ _ => Server.ofJson?_of_edit
  simp only [ofJson?, Json.record?, Option.bind_eq_bind, Option.bind_some, hname, hsettings, hservers]

theorem ofJson?_toJson {d : Domain} (h : d.settings.InRange) : ofJson? surplus d.toJson = some d := by
  rw [toJson, ofJson?, Json.ofFields, Json.record?, Option.bind_eq_bind, Option.bind_some,
    Json.required_ofList (by simp) (.head _), Json.defaulted_ofList (by simp) (.tail _ (.head _)),
    Json.defaulted_ofList (by simp) (.tail _ (.tail _ (.head _))), Settings.ofJson?_toJson h,
    Json.list?_map Server.ofJson?_toJson]
  rfl

/-- A topology is read back from the JSON that it is written to, and from whatever comes of that JSON by
leaving out fields that have their defaults and adding fields that are not known, at any level and in
any order. -/
theorem reads_back {d : Domain} (hd : d.settings.InRange) (surplus : Json.Surplus) :
    ofJson? surplus d.toJson = some d ∧
      ∀ v, Relation.ReflTransGen Edit d.toJson v → ofJson? surplus v = some d := by
  refine ⟨ofJson?_toJson hd, fun v hv => ?_⟩
  induction hv with
  | refl => exact ofJson?_toJson hd
  | tail _ hedit ih => rw [ofJson?_of_edit hedit, ih]

/-- A domain with default settings and one server without services. -/
def sampleDomain : Domain := { name := "main", servers := [{ name := "local" }] }

/-- It says nothing of the settings and the services, and has a note that no one reads. -/
def sampleBrief : Json :=
  .object [("name", .string "main"), ("note", .string "spare"),
    ("server", .array [.object [("name", .string "local")]])]

theorem sampleDomain_edits : Relation.ReflTransGen Edit sampleDomain.toJson sampleBrief := by
  have hwritten : sampleDomain.toJson = .object [("config", Settings.toJson {}),
      ("name", .string "main"),
      ("server", .array [.object [("name", .string "local"), ("service", .array [])]])] := rfl
  have hsettings : Edit sampleDomain.toJson (.object [("name", .string "main"),
      ("server", .array [.object [("name", .string "local"), ("service", .array [])]])]) :=
    hwritten ▸ .drop "config" rfl (.head _)
  have hserver : Server.Edit (.object [("name", .string "local"), ("service", .array [])])
      (.object [("name", .string "local")]) :=
    .drop "service" rfl (.head _)
  have hservers : Edit (.object [("name", .string "main"),
      ("server", .array [.object [("name", .string "local"), ("service", .array [])]])])
      (.object [("name", .string "main"), ("server", .array [.object [("name", .string "local")]])]) :=
    .within "server" rfl (.tail _ (.head _)) (.mk [] [] hserver)
  have hnote : Edit (.object [("name", .string "main"),
      ("server", .array [.object [("name", .string "local")]])]) sampleBrief :=
    .add "note" (.string "spare") (by decide)
  exact .tail (.tail (.single hsettings) hservers) hnote

theorem reads_back_sample :
    sampleDomain.settings.InRange ∧ ofJson? .refused sampleBrief = some sampleDomain :=
  ⟨by decide, (reads_back (by decide) .refused).2 sampleBrief sampleDomain_edits⟩

end Domain

end Topology
end Switchboard
