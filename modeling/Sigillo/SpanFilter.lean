import Sigillo.ChainEvents
import Sigillo.Otlp

/-!
# What leaves the agent's process

A finished span as the SDKs hold it, and the filter they put it through before it is sent: an input
or an output goes as a digest, every attribute the server does not read is dropped, an exception
goes as its class. `filterSpan` is the TypeScript SDK's, `filteredSpan` the Python SDK's; where
Python's comes to an end it is the same function (**`filterSpan_of_filteredSpan`**). -/

namespace Sdk

open DoubleArith Utf16Text JsonText HexBase64 Sigillo
open Otlp (OtlpSpan OtlpSpanEvent SpanStatus)

-- ── Spans ────────────────────────────────────────────────────────────────────────

inductive Scalar where
  | string (s : JsString)
  | number (x : JsNumber)
  | nan
  | boolean (b : Bool)
deriving DecidableEq

inductive AttributeValue where
  | scalar (v : Scalar)
  | list (items : List Scalar)
deriving DecidableEq

/-- Attributes by their names, in the order they are listed; whoever makes a span leaves out those
    without a value. -/
abbrev Attributes := {entries : List (JsString × AttributeValue) // (entries.map Prod.fst).Nodup}

def Attributes.empty : Attributes := ⟨[], List.nodup_nil⟩

def Attributes.get (a : Attributes) (key : JsString) : Option AttributeValue := a.1.lookup key

def Attributes.set (a : Attributes) (key : JsString) (value : AttributeValue) : Attributes :=
  ⟨AssocList.set a.1 key value, AssocList.nodup_keys_set a.2 key value⟩

structure SpanEventData where
  name : JsString
  attributes : Attributes
  timeUnixNano : ℤ
deriving DecidableEq

structure FinishedSpan where
  traceId : Hex 32
  spanId : Hex 16
  parentSpanId : Option (Hex 16)
  name : JsString
  startUnixNano : ℤ
  endUnixNano : ℤ
  statusCode : SpanStatus
  attributes : Attributes
  events : List SpanEventData
  resource : Attributes
deriving DecidableEq

-- ── Digests ──────────────────────────────────────────────────────────────────────

variable (c : Crypto)

/-- HMAC over SHA-256, whose block is 64 bytes. -/
def hmacSha256 (key message : Bytes) : Digest :=
  let short := if key.length > 64 then (c.sha256 key).1 else key
  let block := short ++ List.replicate (64 - short.length) 0
  c.sha256 (block.map (· ^^^ 0x5C) ++ (c.sha256 (block.map (· ^^^ 0x36) ++ message)).1)

/-- SHA-256 of a string's canonical form, which `JSON.stringify` gives. -/
def hashContentValue (value : JsString) : Hex 64 := c.sha256Hex (utf8Encode (quote value))

def saltedHashContentValue (value : JsString) (nonce : Nonce) : Hex 64 :=
  c.sha256Hex (nonce.1 ++ utf8Encode (quote value))

/-- A key of the customer's own. -/
abbrev CustomerKey := {key : Bytes // key ≠ []}

/-- The nonce of a span's digest under the customer's key. -/
def nonceFor (key : CustomerKey) (traceId : Hex 32) (spanId : Hex 16) (role : ArtifactRole) : Nonce :=
  hmacSha256 c key.1 (utf8Encode (js "sigillo-nonce-v1\n" ++ traceId.1 ++ 0x0A :: spanId.1
    ++ 0x0A :: role.name))

structure FilterOptions where
  /-- Salt each digest with a fresh nonce. -/
  salt : Bool
  /-- Nonces are made from it and never sent. -/
  customerKey : Option CustomerKey
deriving DecidableEq

/-- What stands for a value: its digest, and what is said of the nonce. -/
structure ContentDigest where
  sha256 : Hex 64
  nonce : Option JsString
deriving DecidableEq

/-- The digest of a value, under the nonces that would be drawn. -/
def contentDigest (options : FilterOptions) (fresh : ArtifactRole → Nonce) (traceId : Hex 32)
    (spanId : Hex 16) (role : ArtifactRole) (value : JsString) : ContentDigest :=
  match options.customerKey with
  | some key =>
      ⟨saltedHashContentValue c value (nonceFor c key traceId spanId role), some NONCE_KEPT_BY_CUSTOMER⟩
  | none =>
      if options.salt then ⟨saltedHashContentValue c value (fresh role), some (toHex (fresh role).1)⟩
      else ⟨hashContentValue c value, none⟩

-- ── The filter ───────────────────────────────────────────────────────────────────

/-- The attributes that hold content, and the role of each. -/
def CONTENT_ATTRIBUTES : List (JsString × ArtifactRole) :=
  [(js "input.value", .input), (js "gen_ai.input.messages", .input), (js "gen_ai.prompt", .input),
   (js "output.value", .output), (js "gen_ai.output.messages", .output),
   (js "gen_ai.completion", .output)]

def DIGEST_ATTRIBUTE : ArtifactRole → JsString
  | .input => js "sigillo.input.sha256"
  | .output => js "sigillo.output.sha256"

def NONCE_ATTRIBUTE : ArtifactRole → JsString
  | .input => js "sigillo.input.nonce"
  | .output => js "sigillo.output.nonce"

/-- Identifiers and categories the server reads. -/
def KEEP_ATTRIBUTES : List JsString :=
  [js "gen_ai.operation.name", js "gen_ai.tool.name", js "gen_ai.tool.type", js "gen_ai.request.model",
   js "gen_ai.response.model", js "gen_ai.agent.name", js "gen_ai.provider.name", js "gen_ai.system",
   js "openinference.span.kind", js "tool.name", js "llm.model_name", js "llm.provider",
   js "llm.system", js "user.id", js "enduser.id", js "error.type", js "sigillo.model.digest"]

/-- A digest with what is said of its nonce, beside the attributes kept so far. -/
def Attributes.setDigest (kept : Attributes) (role : ArtifactRole) (digest : ContentDigest) : Attributes :=
  let withDigest := kept.set (DIGEST_ATTRIBUTE role) (.scalar (.string digest.sha256.1))
  match digest.nonce with
  | some nonce => withDigest.set (NONCE_ATTRIBUTE role) (.scalar (.string nonce))
  | none => withDigest

/-- One attribute more: of a role's contents the first that is a string. -/
def filterAttribute (digest : ArtifactRole → JsString → ContentDigest) (kept : Attributes)
    (entry : JsString × AttributeValue) : Attributes :=
  match CONTENT_ATTRIBUTES.lookup entry.1 with
  | some role =>
      match entry.2 with
      | .scalar (.string value) =>
          if (kept.get (DIGEST_ATTRIBUTE role)).isSome then kept
          else kept.setDigest role (digest role value)
      | _ => kept
  | none => if entry.1 ∈ KEEP_ATTRIBUTES then kept.set entry.1 entry.2 else kept

def filterAttributes (attributes : Attributes) (options : FilterOptions) (fresh : ArtifactRole → Nonce)
    (traceId : Hex 32) (spanId : Hex 16) : Attributes :=
  attributes.1.foldl (filterAttribute (contentDigest c options fresh traceId spanId)) .empty

/-- An exception keeps its name and its class; any other event goes as it is. -/
def filterEvent (event : SpanEventData) : SpanEventData :=
  if event.name = js "exception" then
    { event with attributes := match event.attributes.get (js "exception.type") with
        | some type => Attributes.empty.set (js "exception.type") type
        | none => .empty }
  else event

/-- **A span as it may leave.** -/
def filterSpan (span : FinishedSpan) (options : FilterOptions) (fresh : ArtifactRole → Nonce) :
    FinishedSpan :=
  { span with
    attributes := filterAttributes c span.attributes options fresh span.traceId span.spanId
    events := span.events.map filterEvent }

-- ── In Python ────────────────────────────────────────────────────────────────────

/-- What Python raises for text that has no UTF-8. -/
inductive UnicodeEncodeError where
  | surrogates
deriving DecidableEq

/-- `json.dumps(value, ensure_ascii=False).encode("utf-8")`: the escapes of `JSON.stringify`, and no
    half of a surrogate pair. -/
def encodeDumps (value : JsString) : Except UnicodeEncodeError Bytes :=
  if isWellFormed value = true then .ok (utf8Encode (quote value)) else .error .surrogates

def filteredDigest (options : FilterOptions) (fresh : ArtifactRole → Nonce) (traceId : Hex 32)
    (spanId : Hex 16) (role : ArtifactRole) (value : JsString) :
    Except UnicodeEncodeError ContentDigest :=
  (encodeDumps value).map fun bytes =>
    match options.customerKey with
    | some key =>
        ⟨c.sha256Hex ((nonceFor c key traceId spanId role).1 ++ bytes), some NONCE_KEPT_BY_CUSTOMER⟩
    | none =>
        if options.salt then ⟨c.sha256Hex ((fresh role).1 ++ bytes), some (toHex (fresh role).1)⟩
        else ⟨c.sha256Hex bytes, none⟩

def filteredAttribute (digest : ArtifactRole → JsString → Except UnicodeEncodeError ContentDigest)
    (kept : Attributes) (entry : JsString × AttributeValue) : Except UnicodeEncodeError Attributes :=
  match CONTENT_ATTRIBUTES.lookup entry.1 with
  | some role =>
      match entry.2 with
      | .scalar (.string value) =>
          if (kept.get (DIGEST_ATTRIBUTE role)).isSome then .ok kept
          else (digest role value).map (kept.setDigest role)
      | _ => .ok kept
  | none => .ok (if entry.1 ∈ KEEP_ATTRIBUTES then kept.set entry.1 entry.2 else kept)

def filteredAttributes (attributes : Attributes) (options : FilterOptions) (fresh : ArtifactRole → Nonce)
    (traceId : Hex 32) (spanId : Hex 16) : Except UnicodeEncodeError Attributes :=
  attributes.1.foldlM (filteredAttribute (filteredDigest c options fresh traceId spanId)) .empty

/-- The entries of an exception that name its class. -/
def filteredEvent (event : SpanEventData) : SpanEventData :=
  if event.name ≠ js "exception" then event
  else
    { event with attributes :=
        ⟨event.attributes.1.filter fun entry => entry.1 == js "exception.type",
          (List.filter_sublist.map Prod.fst).nodup event.attributes.2⟩ }

def filteredSpan (span : FinishedSpan) (options : FilterOptions) (fresh : ArtifactRole → Nonce) :
    Except UnicodeEncodeError FinishedSpan :=
  (filteredAttributes c span.attributes options fresh span.traceId span.spanId).map fun attributes =>
    { span with attributes, events := span.events.map filteredEvent }

-- ── One filter ───────────────────────────────────────────────────────────────────

variable {c}

theorem contentDigest_of_filteredDigest {options : FilterOptions} {fresh : ArtifactRole → Nonce}
    {traceId : Hex 32} {spanId : Hex 16} {role : ArtifactRole} {value : JsString} {d : ContentDigest}
    (h : filteredDigest c options fresh traceId spanId role value = .ok d) :
    d = contentDigest c options fresh traceId spanId role value := by
  rw [filteredDigest, encodeDumps] at h
  by_cases hwf : isWellFormed value = true
  · rw [if_pos hwf] at h
    rw [← Except.ok.inj h, contentDigest]
    cases options.customerKey with
    | some key => rfl
    | none => rfl
  · rw [if_neg hwf] at h
    cases h

theorem foldl_of_foldlM {digest : ArtifactRole → JsString → Except UnicodeEncodeError ContentDigest}
    {digest' : ArtifactRole → JsString → ContentDigest}
    (hdigest : ∀ role value d, digest role value = .ok d → d = digest' role value)
    {entries : List (JsString × AttributeValue)} {kept out : Attributes}
    (h : entries.foldlM (filteredAttribute digest) kept = .ok out) :
    entries.foldl (filterAttribute digest') kept = out := by
  induction entries generalizing kept with
  | nil => exact Except.ok.inj h
  | cons entry rest ih =>
      rw [List.foldlM_cons] at h
      cases hstep : filteredAttribute digest kept entry with
      | error e =>
          rw [hstep] at h
          cases h
      | ok next =>
          rw [hstep] at h
          have hnext : filterAttribute digest' kept entry = next := by
            obtain ⟨key, value⟩ := entry
            simp only [filteredAttribute] at hstep
            simp only [filterAttribute]
            cases hrole : CONTENT_ATTRIBUTES.lookup key with
            | none =>
                rw [hrole] at hstep
                exact Except.ok.inj hstep
            | some role =>
                rw [hrole] at hstep
                cases value with
                | list items => exact Except.ok.inj hstep
                | scalar v =>
                    cases v with
                    | string s =>
                        simp only at hstep ⊢
                        split_ifs at hstep ⊢ with hseen
                        · exact Except.ok.inj hstep
                        · cases hd : digest role s with
                          | error e =>
                              rw [hd] at hstep
                              cases hstep
                          | ok d =>
                              rw [hd] at hstep
                              rw [← hdigest role s d hd]
                              exact Except.ok.inj hstep
                    | _ => exact Except.ok.inj hstep
          rw [List.foldl_cons, hnext]
          exact ih h

theorem filteredEvent_eq (event : SpanEventData) : filteredEvent event = filterEvent event := by
  rw [filteredEvent, filterEvent]
  by_cases hname : event.name = js "exception"
  · rw [if_neg (not_not.mpr hname), if_pos hname]
    obtain ⟨name, ⟨entries, hnd⟩, time⟩ := event
    congr 1
    refine Subtype.ext ?_
    simp only [Attributes.get]
    clear hname
    -- at most one entry has the name
    induction entries with
    | nil => rfl
    | cons entry rest ih =>
        obtain ⟨key, value⟩ := entry
        obtain ⟨hnot, hrest⟩ := List.nodup_cons.mp hnd
        by_cases hkey : key = js "exception.type"
        · subst hkey
          have hnone : rest.filter (fun entry => entry.1 == js "exception.type") = [] := by
            rw [List.filter_eq_nil_iff]
            intro entry hentry heq
            exact hnot (List.mem_map.mpr ⟨entry, hentry, beq_iff_eq.mp heq⟩)
          rw [List.filter_cons_of_pos (by simp), hnone, List.lookup_cons, beq_self_eq_true]
          rfl
        · rw [List.filter_cons_of_neg (by simpa using hkey), ih hrest, List.lookup_cons,
            beq_false_of_ne (Ne.symm hkey)]
  · rw [if_pos hname, if_neg hname]

/-- **What Python sends is what TypeScript would**, unless Python raises. -/
theorem filterSpan_of_filteredSpan {span f : FinishedSpan} {options : FilterOptions}
    {fresh : ArtifactRole → Nonce} (h : filteredSpan c span options fresh = .ok f) :
    f = filterSpan c span options fresh := by
  rw [filteredSpan] at h
  cases hattributes : filteredAttributes c span.attributes options fresh span.traceId span.spanId with
  | error e =>
      rw [hattributes] at h
      cases h
  | ok attributes =>
      rw [hattributes] at h
      have hfold := foldl_of_foldlM (fun _ _ _ => contentDigest_of_filteredDigest) hattributes
      have hevents : span.events.map filteredEvent = span.events.map filterEvent :=
        List.map_congr_left fun event _ => filteredEvent_eq event
      rw [filterSpan, filterAttributes, hfold, ← hevents]
      exact (Except.ok.inj h).symm

end Sdk
