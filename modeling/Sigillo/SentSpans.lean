import Sigillo.SpanExport
import Sigillo.FilteredSpans

/-!
# No content leaves the agent's process

Two runs of the exporters, over spans that differ in what the filter is there to hold back. What is
sent is the same, but for the digests of inputs and outputs and their nonces (**`sent_alike`**).
Of a span of the AI SDK the translation moves four identifiers into names the filter keeps, so the
two must have those in common too (**`movedIdentifier_differs`**). -/

namespace Sdk

open DoubleArith Utf16Text JsonText HexBase64 Sigillo Fallible
open Otlp (SpanStatus)

-- ── Attributes in common ─────────────────────────────────────────────────────────

/-- Whether attributes are compared as they are listed, or by what stands under each name. -/
inductive Comparison where
  | asListed | byName

/-- The same entries in the same order, or the same under each name. -/
def Comparison.Same : Comparison → Attributes → Attributes → Prop
  | .asListed, a, b => a = b
  | .byName, a, b => ∀ k, a.get k = b.get k

namespace Comparison

variable {cmp : Comparison} {a b : Attributes}

/-- The same is found under each name. -/
theorem Same.get (h : cmp.Same a b) (k : JsString) : a.get k = b.get k := by
  cases cmp with
  | asListed =>
      have h : a = b := h
      rw [h]
  | byName => exact h k

/-- Setting the same keeps them the same. -/
theorem Same.set (h : cmp.Same a b) (k : JsString) (v : AttributeValue) :
    cmp.Same (a.set k v) (b.set k v) := by
  cases cmp with
  | asListed =>
      have h : a = b := h
      show a.set k v = b.set k v
      rw [h]
  | byName =>
      intro name
      rw [Attributes.get_set, Attributes.get_set, h.get name]

end Comparison

/-- The attributes under some names. -/
def Attributes.under (a : Attributes) (p : JsString → Bool) : Attributes :=
  ⟨a.1.filter fun entry => p entry.1, (List.filter_sublist.map Prod.fst).nodup a.2⟩

/-- What is under a name that counts is found. -/
theorem Attributes.get_under {a : Attributes} {p : JsString → Bool} {k : JsString} (hk : p k = true) :
    (a.under p).get k = a.get k := by
  have hlookup : ∀ v, (a.under p).get k = some v ↔ a.get k = some v := by
    intro v
    rw [get, get, AssocList.lookup_eq_some_iff_mem (a.under p).2, AssocList.lookup_eq_some_iff_mem a.2]
    simp only [under, List.mem_filter, hk, and_true]
  exact Option.ext hlookup

/-- Setting a name sets it where it counts. -/
theorem Attributes.under_set (a : Attributes) (p : JsString → Bool) (k : JsString) (v : AttributeValue) :
    (a.set k v).under p = if p k then (a.under p).set k v else a.under p := by
  refine Subtype.ext ?_
  have hfilter := AssocList.filter_set p a.1 k v
  rw [apply_ite Subtype.val]
  exact hfilter

/-- A name the filter keeps. -/
def isKept (k : JsString) : Bool := decide (k ∈ KEEP_ATTRIBUTES)

/-- The four names whose values stand for contents. -/
def DIGEST_NAMES : List JsString :=
  [DIGEST_ATTRIBUTE .input, NONCE_ATTRIBUTE .input, DIGEST_ATTRIBUTE .output, NONCE_ATTRIBUTE .output]

/-- A name of no digest or nonce. -/
def isNoDigest (k : JsString) : Bool := decide (k ∉ DIGEST_NAMES)

/-- **What is sent, but for the digests**, is what is kept. -/
theorem under_filterAttributes (c : Crypto) (attributes : Attributes) (options : FilterOptions)
    (fresh : ArtifactRole → Nonce) (traceId : Hex 32) (spanId : Hex 16) :
    (filterAttributes c attributes options fresh traceId spanId).under isNoDigest
      = attributes.under isKept := by
  have hstep : ∀ (digest : ArtifactRole → JsString → ContentDigest) (kept : Attributes)
      (entry : JsString × AttributeValue), (filterAttribute digest kept entry).under isNoDigest
        = if isKept entry.1 then (kept.under isNoDigest).set entry.1 entry.2 else kept.under isNoDigest := by
    intro digest kept entry
    rcases filterAttribute_cases digest kept entry with
      ⟨role, text, -, -, -, hkey, h⟩ | ⟨hkey, -, h⟩ | ⟨hkey, -, h⟩
    · have hdigest : isNoDigest (DIGEST_ATTRIBUTE role) = false := by
        cases role <;> decide
      have hnonce : isNoDigest (NONCE_ATTRIBUTE role) = false := by
        cases role <;> decide
      rw [h, if_neg (by simpa [isKept] using hkey), Attributes.setDigest]
      cases (digest role text).nonce with
      | none => simp only [Attributes.under_set, hdigest, Bool.false_eq_true, if_false]
      | some nonce => simp only [Attributes.under_set, hdigest, hnonce, Bool.false_eq_true, if_false]
    · have hno : isNoDigest entry.1 = true := by
        revert hkey
        generalize entry.1 = k
        revert k
        decide
      rw [h, if_pos (by simpa [isKept] using hkey), Attributes.under_set, if_pos hno]
    · rw [h, if_neg (by simpa [isKept] using hkey)]
  have hrun : ∀ (digest : ArtifactRole → JsString → ContentDigest)
      (entries : List (JsString × AttributeValue)) (kept : Attributes),
      ((entries.foldl (filterAttribute digest) kept).under isNoDigest).1
        = (entries.filter fun entry => isKept entry.1).foldl
            (fun entries entry => AssocList.set entries entry.1 entry.2) (kept.under isNoDigest).1 := by
    intro digest entries
    induction entries with
    | nil => exact fun kept => rfl
    | cons entry rest ih =>
        intro kept
        rw [List.foldl_cons, ih, hstep]
        cases hkept : isKept entry.1 with
        | true =>
            rw [List.filter_cons_of_pos (by simpa using hkept), List.foldl_cons]
            rfl
        | false =>
            rw [List.filter_cons_of_neg (by simp [hkept])]
            rfl
  refine Subtype.ext ((hrun _ _ _).trans ?_)
  exact AssocList.foldl_set (attributes.under isKept).2

-- ── Two runs ─────────────────────────────────────────────────────────────────────

/-- The attributes of a list that the filter keeps are in common. -/
def KeptAlike (cmp : Comparison) (a b : Attributes) : Prop := cmp.Same (a.under isKept) (b.under isKept)

/-- An exception's class is in common, and all there is of an event that is `whole`. -/
structure EventAlike (whole : JsString → Prop) (a b : SpanEventData) : Prop where
  name : a.name = b.name
  time : a.timeUnixNano = b.timeUnixNano
  exceptionClass : a.name = js "exception" →
    a.attributes.get (js "exception.type") = b.attributes.get (js "exception.type")
  whole : whole a.name → a.attributes = b.attributes

/-- Two spans that may differ in whatever the filter holds back. -/
structure Alike (cmp : Comparison) (whole : JsString → Prop) (a b : FinishedSpan) : Prop where
  traceId : a.traceId = b.traceId
  spanId : a.spanId = b.spanId
  parentSpanId : a.parentSpanId = b.parentSpanId
  name : a.name = b.name
  startUnixNano : a.startUnixNano = b.startUnixNano
  endUnixNano : a.endUnixNano = b.endUnixNano
  statusCode : a.statusCode = b.statusCode
  resource : a.resource = b.resource
  kept : KeptAlike cmp a.attributes b.attributes
  events : List.Forall₂ (EventAlike whole) a.events b.events

/-- The identifiers of the AI SDK that the translation moves into names that are kept. -/
def movedNames (name : JsString) : List JsString :=
  if name = js "ai.toolCall" then [js "ai.telemetry.functionId", js "ai.toolCall.name"]
  else if (js ".doGenerate").isSuffixOf name ∨ (js ".doStream").isSuffixOf name
      ∨ (js ".doEmbed").isSuffixOf name then
    [js "ai.telemetry.functionId", js "ai.model.id", js "ai.model.provider"]
  else [js "ai.telemetry.functionId"]

/-- What the translation moves of two spans is in common. -/
def MovedAlike (a b : FinishedSpan) : Prop :=
  (js "ai.").isPrefixOf a.name = true → a.attributes.get VercelAi.OPERATION = none →
    ∀ k ∈ movedNames a.name, a.attributes.get k = b.attributes.get k

/-- Two spans as they leave, but for the digests. -/
structure SentAlike (cmp : Comparison) (a b : FinishedSpan) : Prop where
  traceId : a.traceId = b.traceId
  spanId : a.spanId = b.spanId
  parentSpanId : a.parentSpanId = b.parentSpanId
  name : a.name = b.name
  startUnixNano : a.startUnixNano = b.startUnixNano
  endUnixNano : a.endUnixNano = b.endUnixNano
  statusCode : a.statusCode = b.statusCode
  resource : a.resource = b.resource
  attributes : cmp.Same (a.attributes.under isNoDigest) (b.attributes.under isNoDigest)
  events : a.events = b.events

section Filter

variable {cmp : Comparison} {whole : JsString → Prop} {a b : FinishedSpan}

/-- Alike events are filtered to the same. -/
theorem filterEvent_alike {e e' : SpanEventData}
    (h : EventAlike (fun name => name ≠ js "exception") e e') : filterEvent e = filterEvent e' := by
  obtain ⟨name, attributes, time⟩ := e
  obtain ⟨name', attributes', time'⟩ := e'
  obtain ⟨hname, htime, hclass, hwhole⟩ := h
  obtain rfl : name = name' := hname
  obtain rfl : time = time' := htime
  by_cases hexception : name = js "exception"
  · rw [filterEvent, if_pos hexception, filterEvent, if_pos hexception, hclass hexception]
  · obtain rfl : attributes = attributes' := hwhole hexception
    rfl

/-- **The filter holds back all the two may differ in**, but for the digests. -/
theorem filterSpan_alike (c : Crypto) (options : FilterOptions) (fresh fresh' : ArtifactRole → Nonce)
    (h : Alike cmp (fun name => name ≠ js "exception") a b) :
    SentAlike cmp (filterSpan c a options fresh) (filterSpan c b options fresh') where
  traceId := h.traceId
  spanId := h.spanId
  parentSpanId := h.parentSpanId
  name := h.name
  startUnixNano := h.startUnixNano
  endUnixNano := h.endUnixNano
  statusCode := h.statusCode
  resource := h.resource
  attributes := by
    show cmp.Same ((filterAttributes c a.attributes options fresh a.traceId a.spanId).under isNoDigest)
      ((filterAttributes c b.attributes options fresh' b.traceId b.spanId).under isNoDigest)
    rw [under_filterAttributes, under_filterAttributes]
    exact h.kept
  events := by
    have hevents : List.Forall₂ (fun e e' => filterEvent e = filterEvent e') a.events b.events :=
      h.events.imp fun e e' => filterEvent_alike
    show a.events.map filterEvent = b.events.map filterEvent
    rw [← List.forall₂_eq_eq_eq, List.forall₂_map_left_iff, List.forall₂_map_right_iff]
    exact hevents

end Filter

-- ── Through the translation ──────────────────────────────────────────────────────

section Translation

open VercelAi

variable {cmp : Comparison} {whole : JsString → Prop} {a b out out' : Attributes}

/-- A kept name has the same under it. -/
theorem KeptAlike.get (h : KeptAlike cmp a b) {k : JsString} (hk : isKept k = true) :
    a.get k = b.get k := by
  have hget := Comparison.Same.get h k
  rwa [Attributes.get_under hk, Attributes.get_under hk] at hget

/-- Setting the same under a kept name keeps them alike. -/
theorem KeptAlike.set (h : KeptAlike cmp out out') {k : JsString} {v v' : AttributeValue}
    (hv : isKept k = true → v = v') : KeptAlike cmp (out.set k v) (out'.set k v') := by
  rw [KeptAlike, Attributes.under_set, Attributes.under_set]
  cases hk : isKept k with
  | true =>
      rw [if_pos rfl, if_pos rfl, hv hk]
      exact Comparison.Same.set h k v'
  | false => exact h

/-- What is assigned under a name that is not kept may differ. -/
theorem KeptAlike.assign (h : KeptAlike cmp out out') {k : JsString} {v v' : Option JsString}
    (hv : isKept k = true → v = v') : KeptAlike cmp (assign out k v) (assign out' k v') := by
  cases hk : isKept k with
  | true =>
      rw [hv hk]
      cases v' with
      | none => exact h
      | some s => exact h.set fun _ => rfl
  | false =>
      have hunder : ∀ (x : Attributes) (w : Option JsString),
          (VercelAi.assign x k w).under isKept = x.under isKept := by
        intro x w
        cases w with
        | none => rfl
        | some s =>
            rw [VercelAi.assign, Attributes.under_set, hk]
            rfl
      rw [KeptAlike, hunder, hunder]
      exact h

/-- The first of some names, where each has the same. -/
theorem first_congr {names : List JsString} (h : ∀ k ∈ names, a.get k = b.get k) :
    first a names = first b names := by
  induction names with
  | nil => rfl
  | cons name rest ih =>
      have hrest := ih fun k hk => h k (by simp [hk])
      simp only [first, List.findSome?_cons] at hrest ⊢
      rw [h name (by simp), hrest]

/-- Contents are none of what is kept. -/
theorem KeptAlike.assignContents (h : KeptAlike cmp out out') (input output : List JsString) :
    KeptAlike cmp (assignContents a out input output) (assignContents b out' input output) := by
  refine (h.assign fun hk => ?_).assign fun hk => ?_
  · exact absurd hk (by decide)
  · exact absurd hk (by decide)

/-- The model is the same where what it is made of is. -/
theorem KeptAlike.assignModel (h : KeptAlike cmp out out') (hab : KeptAlike cmp a b)
    (hid : a.get (js "ai.model.id") = b.get (js "ai.model.id"))
    (hprovider : a.get (js "ai.model.provider") = b.get (js "ai.model.provider")) :
    KeptAlike cmp (assignModel a out) (assignModel b out') := by
  refine (h.assign fun _ => first_congr fun k hk => ?_).assign fun _ => first_congr fun k hk => ?_
  · simp only [List.mem_cons, List.not_mem_nil, or_false] at hk
    rcases hk with rfl | rfl
    · exact hab.get (by decide)
    · exact hid
  · simp only [List.mem_cons, List.not_mem_nil, or_false] at hk
    rcases hk with rfl | rfl | rfl
    · exact hab.get (by decide)
    · exact hprovider
    · exact hab.get (by decide)

/-- **Alike spans are translated alike** where what is moved is the same. -/
theorem translated_alike {name : JsString} (h : KeptAlike cmp out out') (hab : KeptAlike cmp a b)
    (hmoved : ∀ k ∈ movedNames name, a.get k = b.get k) :
    KeptAlike cmp (translated name a out) (translated name b out') := by
  have hset : ∀ v, KeptAlike cmp (out.set OPERATION v) (out'.set OPERATION v) := fun v => h.set fun _ => rfl
  rw [translated, translated]
  rw [movedNames] at hmoved
  by_cases htool : name = js "ai.toolCall"
  · rw [if_pos htool] at hmoved
    rw [if_pos htool, if_pos htool]
    refine KeptAlike.assignContents ((hset _).assign fun _ => first_congr fun k hk => ?_) _ _
    obtain rfl := List.mem_singleton.mp hk
    exact hmoved _ (by simp)
  · rw [if_neg htool] at hmoved
    rw [if_neg htool, if_neg htool]
    by_cases hchat : (js ".doGenerate").isSuffixOf name ∨ (js ".doStream").isSuffixOf name
    · rw [if_pos (hchat.elim .inl fun h => .inr (.inl h))] at hmoved
      rw [if_pos hchat, if_pos hchat]
      exact ((hset _).assignModel hab (hmoved _ (by simp)) (hmoved _ (by simp))).assignContents _ _
    · rw [if_neg hchat, if_neg hchat]
      by_cases hembed : (js ".doEmbed").isSuffixOf name = true
      · rw [if_pos (.inr (.inr hembed))] at hmoved
        rw [if_pos hembed, if_pos hembed]
        exact (hset _).assignModel hab (hmoved _ (by simp)) (hmoved _ (by simp))
      · rw [if_neg hembed, if_neg hembed]
        exact (hset _).assignContents _ _

/-- The function's id is moved whatever the span. -/
theorem functionId_mem_movedNames (name : JsString) : js "ai.telemetry.functionId" ∈ movedNames name := by
  rw [movedNames]
  split_ifs
  · exact List.mem_cons_self ..
  · exact List.mem_cons_self ..
  · exact List.mem_cons_self ..

/-- **The translation moves text between attributes**, and brings into the names that are kept only
    what is in common. -/
theorem translateVercelAi_alike {s t : FinishedSpan} (h : Alike cmp whole s t) (hmoved : MovedAlike s t) :
    Alike cmp whole (translateVercelAi s) (translateVercelAi t) := by
  have hoperation : s.attributes.get OPERATION = t.attributes.get OPERATION := h.kept.get (by decide)
  rw [translateVercelAi, translateVercelAi, ← h.name, ← hoperation]
  by_cases hskip : (js "ai.").isPrefixOf s.name = false ∨ (s.attributes.get OPERATION).isSome = true
  · rw [if_pos hskip, if_pos hskip]
    exact h
  · rw [if_neg hskip, if_neg hskip]
    rw [not_or, Bool.not_eq_false, Option.not_isSome_iff_eq_none] at hskip
    have hget := hmoved hskip.1 hskip.2
    have hagent : first s.attributes [js "ai.telemetry.functionId"]
        = first t.attributes [js "ai.telemetry.functionId"] :=
      first_congr fun k hk => hget k (List.mem_singleton.mp hk ▸ functionId_mem_movedNames s.name)
    rw [hagent, h.resource]
    exact ⟨h.traceId, h.spanId, h.parentSpanId, rfl, h.startUnixNano, h.endUnixNano, h.statusCode, rfl,
      translated_alike (h.kept.assign fun _ => rfl) h.kept hget, h.events⟩

end Translation

-- ── The request ──────────────────────────────────────────────────────────────────

/-- The member of an object under a name, rewritten. -/
def inMember (name : JsString) (f : Json → Json) : Json → Json
  | .obj members => .obj (members.map fun m => if m.1 = name then (m.1, f m.2) else m)
  | v => v

/-- Each item of an array. -/
def inItems (f : Json → Json) : Json → Json
  | .arr items => .arr (items.map f)
  | v => v

/-- The name of an attribute in a request. -/
def entryName : Json → JsString
  | .obj members =>
      match members.lookup (js "key") with
      | some (.str name) => name
      | _ => []
  | _ => []

/-- Entries as they are listed, or by their names. -/
def Comparison.arrange : Comparison → List Json → List Json
  | .asListed, entries => entries
  | .byName, entries => entries.mergeSort fun x y => lexLe (entryName x) (entryName y)

/-- The entries but for those of digests and nonces. -/
def withoutDigestEntries (cmp : Comparison) : Json → Json
  | .arr entries => .arr (cmp.arrange (entries.filter fun entry => isNoDigest (entryName entry)))
  | v => v

/-- **A request without the digests of contents**, its spans' attributes arranged for comparison. -/
def withoutDigests (cmp : Comparison) (body : Json) : Json :=
  inMember (js "resourceSpans") (inItems (inMember (js "scopeSpans") (inItems (inMember (js "spans")
    (inItems (inMember (js "attributes") (withoutDigestEntries cmp))))))) body

section Request

variable {cmp : Comparison} {a b : FinishedSpan}

/-- The name of an entry. -/
theorem entryName_keyValue (entry : JsString × AttributeValue) : entryName (keyValue entry) = entry.1 := rfl

/-- The same attributes are arranged the same. -/
theorem arrange_same {a b : Attributes} (h : cmp.Same a b) :
    cmp.arrange (a.1.map keyValue) = cmp.arrange (b.1.map keyValue) := by
  cases cmp with
  | asListed =>
      have h : a = b := h
      rw [h]
  | byName =>
      have hmem : ∀ entry, entry ∈ a.1 ↔ entry ∈ b.1 := by
        rintro ⟨k, v⟩
        rw [← AssocList.lookup_eq_some_iff_mem a.2, ← AssocList.lookup_eq_some_iff_mem b.2]
        exact iff_of_eq (congrArg (· = some v) (h k))
      have hperm : a.1.Perm b.1 :=
        (List.perm_ext_iff_of_nodup (List.Nodup.of_map _ a.2) (List.Nodup.of_map _ b.2)).mpr hmem
      have hsorted : ∀ entries : List Json,
          (entries.mergeSort fun x y => lexLe (entryName x) (entryName y)).Pairwise
            fun x y => lexLe (entryName x) (entryName y) = true := fun entries =>
        List.pairwise_mergeSort (fun x y z => lexLe_trans (a := entryName x))
          (fun x y => lexLe_total (entryName x) (entryName y)) entries
      refine List.Perm.eq_of_pairwise ?_ (hsorted _) (hsorted _) ?_
      · intro x y hx hy hxy hyx
        obtain ⟨e, he, rfl⟩ := List.mem_map.mp (List.mem_mergeSort.mp hx)
        obtain ⟨e', he', rfl⟩ := List.mem_map.mp (List.mem_mergeSort.mp hy)
        have hname := lexLe_antisymm hxy hyx
        rw [entryName_keyValue, entryName_keyValue] at hname
        rw [List.inj_on_of_nodup_map a.2 he ((hmem e').mpr he') hname]
      · exact ((List.mergeSort_perm _ _).trans (hperm.map keyValue)).trans (List.mergeSort_perm _ _).symm

/-- The entries but for digests are those of the attributes but for digests. -/
theorem withoutDigestEntries_keyValues (attributes : Attributes) :
    withoutDigestEntries cmp (keyValues attributes)
      = .arr (cmp.arrange ((attributes.under isNoDigest).1.map keyValue)) := by
  rw [keyValues, withoutDigestEntries, List.filter_map]
  rfl

/-- **A span's part of the request.** -/
theorem spanJson_alike (h : SentAlike cmp a b) :
    inMember (js "attributes") (withoutDigestEntries cmp) (spanJson a)
      = inMember (js "attributes") (withoutDigestEntries cmp) (spanJson b) := by
  have hattributes : withoutDigestEntries cmp (keyValues a.attributes)
      = withoutDigestEntries cmp (keyValues b.attributes) := by
    rw [withoutDigestEntries_keyValues, withoutDigestEntries_keyValues, arrange_same h.attributes]
  have hspan : ∀ s : FinishedSpan, inMember (js "attributes") (withoutDigestEntries cmp) (spanJson s)
      = .obj ([(js "traceId", .str s.traceId.1), (js "spanId", .str s.spanId.1)]
        ++ (s.parentSpanId.map fun id => (js "parentSpanId", Json.str id.1)).toList
        ++ [(js "name", .str s.name), (js "kind", .num (.ofNat 1)),
          (js "startTimeUnixNano", .str (bigintText s.startUnixNano)),
          (js "endTimeUnixNano", .str (bigintText s.endUnixNano)),
          (js "attributes", withoutDigestEntries cmp (keyValues s.attributes)),
          (js "events", .arr (s.events.map eventJson)),
          (js "status", .obj [(js "code", .num (.ofNat (statusNumber s.statusCode)))])]) := by
    intro s
    rw [spanJson, inMember]
    cases s.parentSpanId with
    | none => rfl
    | some id => rfl
  rw [hspan, hspan, h.traceId, h.spanId, h.parentSpanId, h.name, h.startUnixNano, h.endUnixNano,
    h.statusCode, h.events, hattributes]

/-- Alike spans of one resource are sent the same. -/
theorem resourceSpansJson_alike {group group' : List FinishedSpan}
    (h : List.Forall₂ (SentAlike cmp) group group') :
    inMember (js "scopeSpans") (inItems (inMember (js "spans") (inItems (inMember (js "attributes")
        (withoutDigestEntries cmp))))) (resourceSpansJson group)
      = inMember (js "scopeSpans") (inItems (inMember (js "spans") (inItems (inMember (js "attributes")
        (withoutDigestEntries cmp))))) (resourceSpansJson group') := by
  have hresource : group.head?.map FinishedSpan.resource = group'.head?.map FinishedSpan.resource := by
    cases h with
    | nil => rfl
    | cons hspan _ => exact congrArg some hspan.resource
  have hspans : (group.map spanJson).map (inMember (js "attributes") (withoutDigestEntries cmp))
      = (group'.map spanJson).map (inMember (js "attributes") (withoutDigestEntries cmp)) := by
    rw [List.map_map, List.map_map, ← List.forall₂_eq_eq_eq, List.forall₂_map_left_iff,
      List.forall₂_map_right_iff]
    exact h.imp fun s t => spanJson_alike
  have hgroup : ∀ g : List FinishedSpan, inMember (js "scopeSpans") (inItems (inMember (js "spans")
      (inItems (inMember (js "attributes") (withoutDigestEntries cmp))))) (resourceSpansJson g)
      = .obj [(js "resource", .obj [(js "attributes",
          keyValues ((g.head?.map FinishedSpan.resource).getD .empty))]),
        (js "scopeSpans", .arr [.obj [(js "scope", .obj [(js "name", .str (js "@sigillo/sdk"))]),
          (js "spans", .arr ((g.map spanJson).map (inMember (js "attributes")
            (withoutDigestEntries cmp))))]])] := fun g => rfl
  rw [hgroup, hgroup, hresource, hspans]

/-- **Alike spans are sent the same** but for digests and nonces. -/
theorem toOtlpJson_alike {spans spans' : List FinishedSpan} (h : List.Forall₂ (SentAlike cmp) spans spans') :
    withoutDigests cmp (toOtlpJson spans) = withoutDigests cmp (toOtlpJson spans') := by
  have hgroups := AssocList.groupsRelated_groupBy
    (fun s t (hst : SentAlike cmp s t) => congrArg resourceText hst.resource) h
  have hbody : ∀ s : List FinishedSpan, withoutDigests cmp (toOtlpJson s) = .obj [(js "resourceSpans",
      .arr (((AssocList.groupBy (fun span => resourceText span.resource) s).map
        fun group => resourceSpansJson group.2).map (inMember (js "scopeSpans") (inItems
          (inMember (js "spans") (inItems (inMember (js "attributes") (withoutDigestEntries cmp))))))))] :=
    fun s => rfl
  rw [hbody, hbody, List.map_map, List.map_map]
  congr 4
  rw [← List.forall₂_eq_eq_eq, List.forall₂_map_left_iff, List.forall₂_map_right_iff]
  exact hgroups.imp fun g g' hg => resourceSpansJson_alike hg.2

end Request

-- ── Two batches ──────────────────────────────────────────────────────────────────

section Batch

variable {α β γ : Type} {R : α → α → Prop} {S : β → β → Prop}

/-- What holds of each holds of the list. -/
theorem forall₂_mapIdx {f f' : ℕ → α → β} (hstep : ∀ i x y, R x y → S (f i x) (f' i y)) {xs ys : List α}
    (h : List.Forall₂ R xs ys) : List.Forall₂ S (xs.mapIdx f) (ys.mapIdx f') := by
  induction h generalizing f f' with
  | nil => exact .nil
  | cons hxy _ ih =>
      rw [List.mapIdx_cons, List.mapIdx_cons]
      exact .cons (hstep 0 _ _ hxy) (ih fun i => hstep (i + 1))

end Batch

/-- **No content leaves the agent's process**: two batches that may differ in whatever the filter
    holds back, and have in common what the translation moves into names that are kept, are sent the
    same but for the digests; the nonces drawn are of each run's own. -/
theorem sent_alike (c : Crypto) (options : FilterOptions) (cmp : Comparison)
    (fresh fresh' : ℕ → ArtifactRole → Nonce) :
    (∀ spans spans', List.Forall₂ (fun a b => Alike cmp (fun name => name ≠ js "exception") a b ∧
        MovedAlike a b) spans spans' →
      (send c options fresh spans).map (withoutDigests cmp)
        = (send c options fresh' spans').map (withoutDigests cmp)) ∧
    (∀ (Rest : Type) (spans spans' out out' : List (ReadableSpan Rest)),
      List.Forall₂ (fun a b => Alike cmp (fun name => name ≠ js "exception") a.span b.span ∧
        a.rest = b.rest) spans spans' →
      exported c options fresh spans = .ok out → exported c options fresh' spans' = .ok out' →
      List.Forall₂ (fun a b => SentAlike cmp a.span b.span ∧
        a.statusDescription = b.statusDescription ∧ a.rest = b.rest) out out') := by
  constructor
  · intro spans spans' h
    rw [send, send]
    cases h with
    | nil => rfl
    | cons hab hrest =>
        refine congrArg some (toOtlpJson_alike (forall₂_mapIdx ?_ (.cons hab hrest)))
        intro i a b hab
        exact filterSpan_alike c options _ _ (translateVercelAi_alike hab.1 hab.2)
  · intro Rest spans spans' out out' h hout hout'
    refine forall₂_of_mapM_zipIdx ?_ h hout hout'
    rintro i a b z w ⟨hab, hrest⟩ hz hw
    obtain ⟨f, hf, rfl⟩ := map_eq_ok.mp hz
    obtain ⟨f', hf', rfl⟩ := map_eq_ok.mp hw
    refine ⟨?_, rfl, hrest⟩
    have hsent := filterSpan_alike c options (fresh i) (fresh' i) hab
    rwa [← filterSpan_of_filteredSpan hf, ← filterSpan_of_filteredSpan hf'] at hsent

/-- A model call of the AI SDK, of a named function. -/
def functionSpan (function : JsString) : FinishedSpan where
  traceId := ⟨List.replicate 32 0x31, isHex_ones32⟩
  spanId := ⟨List.replicate 16 0x31, isHex_ones16⟩
  parentSpanId := none
  name := js "ai.generateText"
  startUnixNano := 1
  endUnixNano := 1
  statusCode := .unset
  attributes := ⟨[(js "ai.telemetry.functionId", .scalar (.string function))], by simp⟩
  events := []
  resource := .empty

/-- Two functions' spans are alike. -/
theorem functionSpan_alike (cmp : Comparison) (whole : JsString → Prop) (f g : JsString) :
    Alike cmp whole (functionSpan f) (functionSpan g) := by
  refine ⟨rfl, rfl, rfl, rfl, rfl, rfl, rfl, rfl, ?_, .nil⟩
  cases cmp with
  | asListed => rfl
  | byName => exact fun k => rfl

/-- The same call with what was asked of it, in either SDK's words, and how it failed. -/
def raisedSpan (prompt message : JsString) : FinishedSpan :=
  { functionSpan (js "f") with
    attributes := ⟨[(js "ai.telemetry.functionId", .scalar (.string (js "f"))),
        (js "ai.prompt", .scalar (.string prompt)), (js "gen_ai.prompt", .scalar (.string prompt))], by
      show [js "ai.telemetry.functionId", js "ai.prompt", js "gen_ai.prompt"].Nodup
      decide⟩
    events := [⟨js "exception", ⟨[(js "exception.type", .scalar (.string (js "Error"))),
        (js "exception.message", .scalar (.string message))], by
      show [js "exception.type", js "exception.message"].Nodup
      decide⟩, 1⟩] }

/-- Spans that differ in prompt and message are alike. -/
theorem raisedSpan_alike (cmp : Comparison) (prompt prompt' message message' : JsString) :
    Alike cmp (fun name => name ≠ js "exception") (raisedSpan prompt message) (raisedSpan prompt' message') := by
  refine ⟨rfl, rfl, rfl, rfl, rfl, rfl, rfl, rfl, ?_, ?_⟩
  · cases cmp with
    | asListed => rfl
    | byName => exact fun k => rfl
  · exact .cons ⟨rfl, rfl, fun _ => rfl, fun hother => absurd rfl hother⟩ .nil

/-- Two calls that differ in the prompt and in the exception's message: the TypeScript exporter sends
    the same of both but for the digests, and the Python one hands on the same. -/
theorem raisedSpan_sent :
    (send toyCrypto ⟨true, none⟩ (fun _ _ => ⟨List.replicate 32 0, rfl⟩)
        [raisedSpan (js "yes?") (js "lost")]).map (withoutDigests .asListed)
      = (send toyCrypto ⟨true, none⟩ (fun _ _ => ⟨List.replicate 32 1, rfl⟩)
        [raisedSpan (js "no?") (js "found")]).map (withoutDigests .asListed) ∧
    ∃ out out', exported toyCrypto ⟨true, none⟩ (fun _ _ => ⟨List.replicate 32 0, rfl⟩)
        [⟨raisedSpan (js "yes?") (js "lost"), some (js "lost"), ()⟩] = .ok out ∧
      exported toyCrypto ⟨true, none⟩ (fun _ _ => ⟨List.replicate 32 1, rfl⟩)
        [⟨raisedSpan (js "no?") (js "found"), some (js "found"), ()⟩] = .ok out' ∧
      List.Forall₂ (fun a b => SentAlike .asListed a.span b.span ∧
        a.statusDescription = b.statusDescription ∧ a.rest = b.rest) out out' := by
  obtain ⟨hsent, hexported⟩ := sent_alike toyCrypto ⟨true, none⟩ .asListed
    (fun _ _ => ⟨List.replicate 32 0, rfl⟩) (fun _ _ => ⟨List.replicate 32 1, rfl⟩)
  have halike := raisedSpan_alike .asListed (js "yes?") (js "no?") (js "lost") (js "found")
  obtain ⟨out, hout⟩ : ∃ out, exported toyCrypto ⟨true, none⟩ (fun _ _ => ⟨List.replicate 32 0, rfl⟩)
      [⟨raisedSpan (js "yes?") (js "lost"), some (js "lost"), ()⟩] = .ok out := ⟨_, rfl⟩
  obtain ⟨out', hout'⟩ : ∃ out, exported toyCrypto ⟨true, none⟩ (fun _ _ => ⟨List.replicate 32 1, rfl⟩)
      [⟨raisedSpan (js "no?") (js "found"), some (js "found"), ()⟩] = .ok out := ⟨_, rfl⟩
  refine ⟨hsent _ _ (.cons ⟨halike, fun _ _ k hk => ?_⟩ .nil), out, out', hout, hout',
    hexported Unit _ _ out out' ?_ hout hout'⟩
  · obtain rfl := List.mem_singleton.mp hk
    rfl
  · exact .cons ⟨halike, rfl⟩ .nil

/-- The first attribute of the first span of a request. -/
def firstSent (body : Json) : Json :=
  let member name : Json → Json
    | .obj members => (members.lookup name).getD .null
    | _ => .null
  let head : Json → Json
    | .arr (item :: _) => item
    | _ => .null
  head (member (js "attributes") (head (member (js "spans") (head (member (js "scopeSpans")
    (head (member (js "resourceSpans") body)))))))

/-- **The function's name is sent**, as the agent's: an attribute that is not one of those kept. -/
theorem movedIdentifier_differs : ¬ ∀ (c : Crypto) (options : FilterOptions) (cmp : Comparison)
    (fresh fresh' : ℕ → ArtifactRole → Nonce) (spans spans' : List FinishedSpan),
    List.Forall₂ (Alike cmp fun name => name = ARTIFACT_EVENT_NAME) spans spans' →
      (send c options fresh spans).map (withoutDigests cmp)
        = (send c options fresh' spans').map (withoutDigests cmp) := by
  intro h
  have hsent := h toyCrypto ⟨true, none⟩ .asListed (fun _ _ => ⟨List.replicate 32 0, rfl⟩)
    (fun _ _ => ⟨List.replicate 32 0, rfl⟩) [functionSpan (js "f")] [functionSpan (js "g")]
    (.cons (functionSpan_alike _ _ _ _) .nil)
  have hagent := congrArg (Option.map firstSent) hsent
  have hf : ((send toyCrypto ⟨true, none⟩ (fun _ _ => ⟨List.replicate 32 0, rfl⟩)
      [functionSpan (js "f")]).map (withoutDigests .asListed)).map firstSent
      = some (keyValue (js "gen_ai.agent.name", .scalar (.string (js "f")))) := rfl
  have hg : ((send toyCrypto ⟨true, none⟩ (fun _ _ => ⟨List.replicate 32 0, rfl⟩)
      [functionSpan (js "g")]).map (withoutDigests .asListed)).map firstSent
      = some (keyValue (js "gen_ai.agent.name", .scalar (.string (js "g")))) := rfl
  rw [hf, hg] at hagent
  cases hagent

end Sdk
