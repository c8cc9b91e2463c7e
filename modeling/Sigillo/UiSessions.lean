import Sigillo.Administration
import Sigillo.HexBase64
import Sigillo.JoinedLines
import Mathlib.Data.Set.Function

/-!
# The web view's sessions

A cookie says who signed in and until when, under a MAC whose secret lives in this process only. The
text under the MAC is parts with dots between them, and it is read one way only.

* **`whoOf_inj`** — two viewers the store accepts are never written the same;
* **`checkedText_inj`** — what a session is checked against is the text of one session, never that of
  a sealed value;
* **`sessions_sound`** — over any calls, a viewer is read only from a cookie issued to it, and
  neither expired nor signed out since;
* **`read_issued`** — and until then it is. -/

namespace Sigillo

open DoubleArith Utf16Text JsonText JsonParse HexBase64 EcmaText

-- ── Parts with dots between them ─────────────────────────────────────────────────

/-- What stands between the parts of a cookie. -/
def DOT : UInt16 := 0x2E

/-- What stands between the parts of a viewer's name. -/
def UNDERSCORE : UInt16 := 0x5F

/-- `${a}.${b}.${c}`. -/
def dotted (a b c : JsString) : JsString := a ++ DOT :: (b ++ DOT :: c)

/-- Three parts with dots between them. -/
theorem intercalate_dotted (a b c : JsString) : [DOT].intercalate [a, b, c] = dotted a b c := by
  simp [List.intercalate, dotted]

/-- Splitting at the dots splits each part. -/
theorem splitOn_dotted (a b c : JsString) :
    (dotted a b c).splitOn DOT = a.splitOn DOT ++ (b.splitOn DOT ++ c.splitOn DOT) := by
  rw [dotted, List.splitOn_append_cons_self, List.splitOn_append_cons_self]

/-- Parts without dots are split off. -/
theorem splitOn_dotted_of_not_mem {a b c : JsString} (ha : DOT ∉ a) (hb : DOT ∉ b) (hc : DOT ∉ c) :
    (dotted a b c).splitOn DOT = [a, b, c] := by
  rw [splitOn_dotted, List.splitOn_eq_singleton ha, List.splitOn_eq_singleton hb,
    List.splitOn_eq_singleton hc]
  rfl

/-- A text without dots is one part. -/
theorem eq_of_splitOn {a x : JsString} (h : a.splitOn DOT = [x]) : a = x := by
  have hjoined := @List.intercalate_splitOn _ a _ _ DOT
  rw [h, List.intercalate_singleton] at hjoined
  exact hjoined.symm

/-- A text that splits into three parts is the three with dots between them. -/
theorem eq_dotted {value a b c : JsString} (h : value.splitOn DOT = [a, b, c]) : value = dotted a b c := by
  have hjoined := @List.intercalate_splitOn _ value _ _ DOT
  rw [h, intercalate_dotted] at hjoined
  exact hjoined.symm

/-- The parts a text splits into have no dot in them. -/
theorem not_mem_of_splitOn {value part : JsString} (h : part ∈ value.splitOn DOT) : DOT ∉ part := by
  induction value generalizing part with
  | nil =>
      rw [List.splitOn_nil, List.mem_singleton] at h
      subst h
      exact List.not_mem_nil
  | cons u value ih =>
      rw [List.splitOn_cons_eq_if_modifyHead] at h
      by_cases hu : (u == DOT) = true
      · rw [if_pos hu] at h
        rcases List.mem_cons.mp h with rfl | h
        · exact List.not_mem_nil
        · exact ih h
      · rw [if_neg hu] at h
        cases hrest : value.splitOn DOT with
        | nil => exact absurd hrest (List.splitOn_ne_nil _ _)
        | cons first rest =>
            rw [hrest] at h ih
            rcases List.mem_cons.mp h with rfl | h
            · intro hdot
              rcases List.mem_cons.mp hdot with heq | hdot
              · exact hu (beq_iff_eq.mpr heq.symm)
              · exact ih (List.mem_cons_self ..) hdot
            · exact ih (List.mem_cons_of_mem _ h)

/-- **Three parts without dots are known by their text**, whatever the other three are. -/
theorem dotted_inj {a b c x y z : JsString} (ha : DOT ∉ a) (hb : DOT ∉ b) (hc : DOT ∉ c)
    (h : dotted x y z = dotted a b c) : x = a ∧ y = b ∧ z = c := by
  have hparts := splitOn_dotted_of_not_mem ha hb hc
  rw [← h, splitOn_dotted] at hparts
  obtain ⟨x', xs, hx⟩ := List.exists_cons_of_ne_nil (List.splitOn_ne_nil DOT x)
  obtain ⟨y', ys, hy⟩ := List.exists_cons_of_ne_nil (List.splitOn_ne_nil DOT y)
  obtain ⟨z', zs, hz⟩ := List.exists_cons_of_ne_nil (List.splitOn_ne_nil DOT z)
  have hlen := congrArg List.length hparts
  simp only [hx, hy, hz, List.length_append, List.length_cons, List.length_nil] at hlen
  obtain rfl : xs = [] := List.eq_nil_of_length_eq_zero (by omega)
  obtain rfl : ys = [] := List.eq_nil_of_length_eq_zero (by omega)
  obtain rfl : zs = [] := List.eq_nil_of_length_eq_zero (by omega)
  rw [hx, hy, hz] at hparts
  obtain ⟨hfirst, hparts⟩ := List.cons.inj hparts
  obtain ⟨hsecond, hparts⟩ := List.cons.inj hparts
  obtain ⟨hthird, -⟩ := List.cons.inj hparts
  rw [hfirst] at hx
  rw [hsecond] at hy
  rw [hthird] at hz
  exact ⟨eq_of_splitOn hx, eq_of_splitOn hy, eq_of_splitOn hz⟩

-- ── Viewers ──────────────────────────────────────────────────────────────────────

/-- **`Viewer`**: who is looking at the web view. -/
inductive Viewer where
  | operator
  | organization (organizationId : JsString) (userId : Option JsString)
deriving DecidableEq

/-- The organization is one the store accepts. -/
def Viewer.Accepted : Viewer → Prop
  | .operator => True
  | .organization organizationId _ => isOrganizationId organizationId = true

instance (v : Viewer) : Decidable v.Accepted := by
  cases v <;> (unfold Viewer.Accepted; infer_instance)

/-- `/^[A-Za-z0-9]{1,128}$/`. -/
def isUid (s : JsString) : Bool :=
  decide (1 ≤ s.length ∧ s.length ≤ 128) && s.all fun u =>
    decide (0x41 ≤ u ∧ u ≤ 0x5A ∨ 0x61 ≤ u ∧ u ≤ 0x7A ∨ 0x30 ≤ u ∧ u ≤ 0x39)

/-- `whoOf`: the name of a viewer in a cookie. -/
def whoOf : Viewer → JsString
  | .operator => js "operator"
  | .organization organizationId none => js "org_" ++ organizationId
  | .organization organizationId (some userId) => js "org_" ++ (organizationId ++ UNDERSCORE :: userId)

/-- The member, or the organization alone, that the parts between underscores name. -/
def viewerOfParts : List JsString → Option Viewer
  | [organizationId] =>
      if isOrganizationId organizationId then some (.organization organizationId none) else none
  | [organizationId, userId] =>
      if isOrganizationId organizationId ∧ isUid userId then some (.organization organizationId (some userId))
      else none
  | _ => none

/-- `viewerOf`: the viewer of a name. -/
def viewerOf (who : JsString) : Option Viewer :=
  if who = js "operator" then some .operator
  else if ¬ (js "org_").isPrefixOf who then none
  else viewerOfParts ((who.drop 4).splitOn UNDERSCORE)

/-- An organization's id has no other marks. -/
theorem not_mem_organizationId {id : JsString} (h : isOrganizationId id = true) {mark : UInt16}
    (hmark : ¬ (0x61 ≤ mark ∧ mark ≤ 0x7A ∨ 0x30 ≤ mark ∧ mark ≤ 0x39) ∧ mark ≠ 0x2D) : mark ∉ id := by
  intro hmem
  simp only [isOrganizationId, Bool.and_eq_true, List.all_eq_true, Bool.or_eq_true, decide_eq_true_eq,
    beq_iff_eq] at h
  exact (h.1.1.2 mark hmem).elim hmark.1 hmark.2

/-- **Two viewers the store accepts are never written the same**, whatever their uids. -/
theorem whoOf_inj {v w : Viewer} (hv : v.Accepted) (hw : w.Accepted) (h : whoOf v = whoOf w) : v = w := by
  have hmark : ∀ {id : JsString}, isOrganizationId id = true → UNDERSCORE ∉ id := fun hid =>
    not_mem_organizationId hid (by decide)
  have hoperator : ∀ rest : JsString, js "operator" ≠ js "org_" ++ rest := by
    intro rest heq
    have hsecond := congrArg (fun s : JsString => s[1]?) heq
    exact absurd hsecond (by show ¬ (some 0x70 = some 0x72); decide)
  match v, w with
  | .operator, .operator => rfl
  | .operator, .organization id none => exact absurd h (hoperator id)
  | .operator, .organization id (some uid) => exact absurd h (hoperator _)
  | .organization id none, .operator => exact absurd h.symm (hoperator id)
  | .organization id (some uid), .operator => exact absurd h.symm (hoperator _)
  | .organization a none, .organization b none => rw [List.append_cancel_left h]
  | .organization a none, .organization b (some uid) =>
      have hid : a = b ++ UNDERSCORE :: uid := List.append_cancel_left h
      exact absurd (by rw [hid]; exact List.mem_append_right _ (List.mem_cons_self ..)) (hmark hv)
  | .organization a (some uid), .organization b none =>
      have hid : a ++ UNDERSCORE :: uid = b := List.append_cancel_left h
      exact absurd (by rw [← hid]; exact List.mem_append_right _ (List.mem_cons_self ..)) (hmark hw)
  | .organization a (some uid), .organization b (some other) =>
      obtain ⟨rfl, rfl⟩ := JoinedLines.append_mark_inj (hmark hv) (hmark hw) (List.append_cancel_left h)
      rfl

/-- A viewer that is read is the one written, and accepted. -/
theorem whoOf_of_viewerOf {who : JsString} {v : Viewer} (h : viewerOf who = some v) :
    whoOf v = who ∧ v.Accepted := by
  rw [viewerOf] at h
  by_cases hoperator : who = js "operator"
  · rw [if_pos hoperator] at h
    obtain rfl := Option.some.inj h
    exact ⟨hoperator.symm, trivial⟩
  · rw [if_neg hoperator] at h
    by_cases hprefix : (js "org_").isPrefixOf who = true
    · rw [if_neg (not_not_intro hprefix)] at h
      obtain ⟨rest, rfl⟩ := List.isPrefixOf_iff_prefix.mp hprefix
      rw [show (js "org_" ++ rest).drop 4 = rest from rfl] at h
      have hjoined := @List.intercalate_splitOn _ rest _ _ UNDERSCORE
      match hparts : rest.splitOn UNDERSCORE, h with
      | [organizationId], h =>
          rw [hparts, List.intercalate_singleton] at hjoined
          rw [viewerOfParts] at h
          by_cases hid : isOrganizationId organizationId = true
          · rw [if_pos hid] at h
            obtain rfl := Option.some.inj h
            exact ⟨by rw [whoOf, hjoined], hid⟩
          · rw [if_neg hid] at h
            cases h
      | [organizationId, userId], h =>
          rw [hparts] at hjoined
          rw [viewerOfParts] at h
          by_cases hid : isOrganizationId organizationId = true ∧ isUid userId = true
          · rw [if_pos hid] at h
            obtain rfl := Option.some.inj h
            have hpair : organizationId ++ UNDERSCORE :: userId = rest := by
              rw [← hjoined]
              simp [List.intercalate]
            exact ⟨congrArg (js "org_" ++ ·) hpair, hid.1⟩
          · rw [if_neg hid] at h
            cases h
      | [], h => cases h
      | _ :: _ :: _ :: _, h => cases h
    · rw [if_pos hprefix] at h
      cases h

-- ── The sessions ─────────────────────────────────────────────────────────────────

/-- **`UiSessions`**: how long a session lasts, and how often each viewer signed out. -/
structure UiSessions where
  hours : ℕ
  epochs : List (JsString × ℕ)

namespace UiSessions

/-- A new process. -/
def start (hours : ℕ) : UiSessions := ⟨hours, []⟩

/-- A cookie as it is set. -/
structure Cookie where
  value : JsString
  maxAgeSeconds : ℕ

/-- How often a viewer's sessions were ended. -/
def epochOf (s : UiSessions) (who : JsString) : ℕ := (s.epochs.lookup who).getD 0

/-- The text a session is under the MAC of. -/
def macText (s : UiSessions) (expiry who : JsString) : JsString := dotted expiry who (decimal (s.epochOf who))

/-- The text a sealed value is under the MAC of. -/
def sealText (purpose expiry body : JsString) : JsString := js "seal:" ++ dotted purpose expiry body

/-- `Buffer.from(bytes).toString("base64url")`. -/
def base64Url (bytes : Bytes) : JsString :=
  ((base64Encode bytes).filter fun u => u != 0x3D).map fun u =>
    if u = 0x2B then 0x2D else if u = 0x2F then 0x5F else u

/-- `/^\d+$/`. -/
def isDigits (s : JsString) : Bool := !s.isEmpty && s.all isDigit

/-- `Number(text) < nowMs`; nothing is less than NaN. -/
def isBefore : Option JsNumber → ℤ → Bool
  | some (.fin q _), nowMs => decide (q < nowMs)
  | some (.infinity negative), _ => negative
  | none, _ => false

/-- `Number.isFinite`. -/
def isFinite : Option JsNumber → Bool
  | some (.fin _ _) => true
  | _ => false

/-- `timingSafeEqual`, of a text of 64 hexadecimal digits and the bytes of a MAC. -/
def sameMac (given : JsString) (expected : Digest) : Bool :=
  if h : IsHex 64 given then digestOfHex ⟨given, h⟩ = expected else false

/-- The milliseconds a session lasts. -/
def sessionMs (s : UiSessions) : ℤ := s.hours * 3600 * 1000

-- The MAC of a text under the secret of this process.
variable (hmac : JsString → Digest)

/-- **`issue`.** -/
def issue (s : UiSessions) (viewer : Viewer) (nowMs : ℤ) : Cookie :=
  let expiry := intText (nowMs + s.sessionMs)
  let who := whoOf viewer
  ⟨dotted expiry who (hmac (s.macText expiry who)).hex.1, s.hours * 3600⟩

/-- **`read`.** -/
def read (s : UiSessions) (value : Option JsString) (nowMs : ℤ) : Option Viewer :=
  match value.map fun value => value.splitOn DOT with
  | some [expiry, who, given] =>
      let deadline := stringToNumber expiry
      if ¬ isDigits expiry ∨ ¬ isFinite deadline ∨ isBefore deadline nowMs then none
      else
        match viewerOf who with
        | none => none
        | some viewer => if sameMac given (hmac (s.macText expiry who)) then some viewer else none
  | _ => none

/-- `endAll`. -/
def endAll (s : UiSessions) (viewer : Viewer) : UiSessions :=
  let who := whoOf viewer
  { s with epochs := AssocList.set s.epochs who (s.epochOf who + 1) }

/-- `seal`; `purpose` keeps one kind from being replayed as another. -/
def sealValue (purpose payload : JsString) (nowMs ttlMs : ℤ) : JsString :=
  let expiry := intText (nowMs + ttlMs)
  let body := base64Url (utf8Encode payload)
  dotted expiry body (hmac (sealText purpose expiry body)).hex.1

/-- `unsealValue`. -/
def unsealValue (purpose : JsString) (value : Option JsString) (nowMs : ℤ) : Option JsString :=
  match value.map fun value => value.splitOn DOT with
  | some [expiry, body, given] =>
      if ¬ isDigits expiry ∨ isBefore (stringToNumber expiry) nowMs then none
      else if sameMac given (hmac (sealText purpose expiry body)) then some (utf8Decode (bufferFromBase64 body))
      else none
  | _ => none

-- ── Calls ────────────────────────────────────────────────────────────────────────

/-- A call on the sessions; anyone may present any value. -/
inductive Call where
  | issue (viewer : Viewer) (nowMs : ℤ)
  | read (value : Option JsString) (nowMs : ℤ)
  | endAll (viewer : Viewer)
  | sealValue (purpose payload : JsString) (nowMs ttlMs : ℤ)
  | unsealValue (purpose : JsString) (value : Option JsString) (nowMs : ℤ)

/-- The viewers a call is made for belong to organizations the store accepts. -/
def Call.Accepted : Call → Prop
  | .issue viewer _ | .endAll viewer => viewer.Accepted
  | _ => True

/-- What a call leaves; only signing out changes anything. -/
def apply (s : UiSessions) : Call → UiSessions
  | .endAll viewer => s.endAll viewer
  | _ => s

/-- The sessions after some calls. -/
def after (s : UiSessions) (calls : List Call) : UiSessions := calls.foldl apply s

/-- The text whose MAC a call gives out. -/
def gives (s : UiSessions) : Call → Option JsString
  | .issue viewer nowMs => some (s.macText (intText (nowMs + s.sessionMs)) (whoOf viewer))
  | .sealValue purpose payload nowMs ttlMs =>
      some (sealText purpose (intText (nowMs + ttlMs)) (base64Url (utf8Encode payload)))
  | _ => none

/-- The text a presented value is checked against, and the MAC it carries. -/
def checks (s : UiSessions) : Call → Option (JsString × JsString)
  | .read (some value) _ =>
      match value.splitOn DOT with
      | [expiry, who, given] => some (s.macText expiry who, given)
      | _ => none
  | .unsealValue purpose (some value) _ =>
      match value.splitOn DOT with
      | [expiry, body, given] => some (sealText purpose expiry body, given)
      | _ => none
  | _ => none

/-- The texts whose MACs were given out. -/
def givenOut (s : UiSessions) : List Call → List JsString
  | [] => []
  | call :: calls => (s.gives call).toList ++ givenOut (s.apply call) calls

/-- The texts a MAC is made of, to be given out or to be compared. -/
def textsOf (s : UiSessions) : List Call → List JsString
  | [] => []
  | call :: calls =>
      (s.gives call).toList ++ ((s.checks call).toList.map Prod.fst ++ textsOf (s.apply call) calls)

/-- **The MAC taken as injective and unforgeable**: no two texts it is made of have one MAC, and a
    value that carries the right one carries one that was given out before. -/
structure Ideal (s : UiSessions) (calls : List Call) : Prop where
  injective : Set.InjOn hmac {text | text ∈ s.textsOf calls}
  unforged : ∀ before call rest text given, calls = before ++ call :: rest →
    (s.after before).checks call = some (text, given) → given = (hmac text).hex.1 →
    hmac text ∈ (s.givenOut before).map hmac

variable {hmac} {s : UiSessions}

/-- What was given out, some call gave. -/
theorem mem_givenOut {calls : List Call} {text : JsString} (h : text ∈ s.givenOut calls) :
    ∃ before call rest, calls = before ++ call :: rest ∧ (s.after before).gives call = some text := by
  induction calls generalizing s with
  | nil => cases h
  | cons call calls ih =>
      rcases List.mem_append.mp h with h | h
      · exact ⟨[], call, calls, rfl, Option.mem_toList.mp h⟩
      · obtain ⟨before, later, rest, rfl, hgives⟩ := ih h
        exact ⟨call :: before, later, rest, rfl, hgives⟩

/-- What a call gives or checks is among the texts of the calls. -/
theorem mem_textsOf {before rest : List Call} {call : Call} {text : JsString}
    (h : (s.after before).gives call = some text ∨ ∃ given, (s.after before).checks call = some (text, given)) :
    text ∈ s.textsOf (before ++ call :: rest) := by
  induction before generalizing s with
  | nil =>
      rcases h with h | ⟨given, h⟩
      · exact List.mem_append_left _ (Option.mem_toList.mpr h)
      · exact List.mem_append_right _ (List.mem_append_left _
          (List.mem_map.mpr ⟨_, Option.mem_toList.mpr h, rfl⟩))
  | cons first before ih => exact List.mem_append_right _ (List.mem_append_right _ (ih h))

-- ── Signing out ──────────────────────────────────────────────────────────────────

/-- Ending a viewer's sessions counts for that viewer alone. -/
theorem epochOf_endAll (s : UiSessions) (viewer : Viewer) (who : JsString) :
    (s.endAll viewer).epochOf who = if whoOf viewer = who then s.epochOf who + 1 else s.epochOf who := by
  rw [epochOf, endAll]
  dsimp only
  rw [AssocList.lookup_set]
  by_cases hwho : who = whoOf viewer
  · subst hwho
    rw [if_pos (beq_self_eq_true _), if_pos rfl]
    rfl
  · rw [if_neg (fun h => hwho (eq_of_beq h)), if_neg (fun h => hwho h.symm)]
    rfl

/-- A call before others. -/
theorem after_cons (s : UiSessions) (call : Call) (calls : List Call) :
    s.after (call :: calls) = (s.apply call).after calls := rfl

/-- Calls before others. -/
theorem after_append (s : UiSessions) (before rest : List Call) :
    s.after (before ++ rest) = (s.after before).after rest := List.foldl_append

/-- No call changes how long sessions last. -/
theorem hours_after (s : UiSessions) (calls : List Call) : (s.after calls).hours = s.hours := by
  induction calls generalizing s with
  | nil => rfl
  | cons call calls ih =>
      rw [after_cons, ih]
      cases call <;> rfl

/-- No call takes an ending back. -/
theorem epochOf_le_apply (s : UiSessions) (call : Call) (who : JsString) :
    s.epochOf who ≤ (s.apply call).epochOf who := by
  cases call with
  | endAll viewer =>
      rw [apply, epochOf_endAll]
      split_ifs
      · exact Nat.le_succ _
      · exact le_rfl
  | issue | read | sealValue | unsealValue => exact le_rfl

/-- No calls take an ending back. -/
theorem epochOf_le_after (s : UiSessions) (calls : List Call) (who : JsString) :
    s.epochOf who ≤ (s.after calls).epochOf who := by
  induction calls generalizing s with
  | nil => exact le_rfl
  | cons call calls ih => exact (epochOf_le_apply s call who).trans (ih _)

/-- A viewer that signed out has a later epoch. -/
theorem epochOf_lt_after {calls : List Call} {viewer : Viewer} (h : .endAll viewer ∈ calls) :
    s.epochOf (whoOf viewer) < (s.after calls).epochOf (whoOf viewer) := by
  induction calls generalizing s with
  | nil => cases h
  | cons call calls ih =>
      rcases List.mem_cons.mp h with rfl | h
      · have hnext : (s.apply (.endAll viewer)).epochOf (whoOf viewer) = s.epochOf (whoOf viewer) + 1 := by
          rw [apply, epochOf_endAll, if_pos rfl]
        have hle := epochOf_le_after (s.apply (.endAll viewer)) calls (whoOf viewer)
        rw [after_cons]
        omega
      · exact (epochOf_le_apply s call _).trans_lt (ih h)

-- ── Reading a session ────────────────────────────────────────────────────────────

/-- What is given is compared with the code's digits. -/
theorem sameMac_iff {given : JsString} {expected : Digest} :
    sameMac given expected = true ↔ given = expected.hex.1 := by
  rw [sameMac]
  split_ifs with h
  · rw [decide_eq_true_eq]
    constructor
    · intro heq
      rw [← heq, hex_digestOfHex]
    · rintro rfl
      exact digestOfHex_hex expected
  · refine iff_of_false (fun h => nomatch h) ?_
    rintro rfl
    exact h expected.hex.2

/-- **What a value is read as a session from**: its three parts, the MAC of the first two and of the
    epoch, and a time that has not passed. -/
theorem read_eq_some {value : JsString} {nowMs : ℤ} {v : Viewer} (h : s.read hmac (some value) nowMs = some v) :
    ∃ expiry who, value.splitOn DOT = [expiry, who, (hmac (s.macText expiry who)).hex.1] ∧
      isDigits expiry = true ∧ isBefore (stringToNumber expiry) nowMs = false ∧ viewerOf who = some v := by
  rw [read, Option.map_some] at h
  match hparts : value.splitOn DOT, h with
  | [expiry, who, given], h =>
      by_cases hbad : ¬ isDigits expiry = true ∨ ¬ isFinite (stringToNumber expiry) = true ∨
          isBefore (stringToNumber expiry) nowMs = true
      · exact absurd (h.symm.trans (if_pos hbad)) (by simp)
      · replace h := (if_neg hbad).symm.trans h
        obtain ⟨hdigits, -, htime⟩ := not_or.mp hbad |>.imp not_not.mp not_or.mp
        cases hviewer : viewerOf who with
        | none =>
            rw [hviewer] at h
            cases h
        | some viewer =>
            rw [hviewer] at h
            by_cases hmac' : sameMac given (hmac (s.macText expiry who)) = true
            · replace h := (if_pos hmac').symm.trans h
              obtain rfl := Option.some.inj h
              exact ⟨expiry, who, by rw [sameMac_iff.mp hmac'], hdigits, Bool.eq_false_iff.mpr htime, hviewer⟩
            · exact absurd ((if_neg hmac').symm.trans h) (by simp)
  | [], h | [_], h | [_, _], h | _ :: _ :: _ :: _ :: _, h => cases h

/-- **What is unsealed** was under the MAC of its purpose. -/
theorem unseal_eq_some {purpose value payload : JsString} {nowMs : ℤ}
    (h : unsealValue hmac purpose (some value) nowMs = some payload) :
    ∃ expiry body, value.splitOn DOT = [expiry, body, (hmac (sealText purpose expiry body)).hex.1] := by
  rw [unsealValue, Option.map_some] at h
  match hparts : value.splitOn DOT, h with
  | [expiry, body, given], h =>
      by_cases hbad : ¬ isDigits expiry = true ∨ isBefore (stringToNumber expiry) nowMs = true
      · exact absurd (h.symm.trans (if_pos hbad)) (by simp)
      · replace h := (if_neg hbad).symm.trans h
        by_cases hmac' : sameMac given (hmac (sealText purpose expiry body)) = true
        · exact ⟨expiry, body, by rw [sameMac_iff.mp hmac']⟩
        · exact absurd ((if_neg hmac').symm.trans h) (by simp)
  | [], h | [_], h | [_, _], h | _ :: _ :: _ :: _ :: _, h => cases h

/-- Reading depends on the epoch of who the value names, and on no other. -/
theorem read_congr {s' : UiSessions} {value : JsString} (nowMs : ℤ)
    (h : ∀ expiry who given, value.splitOn DOT = [expiry, who, given] → s.epochOf who = s'.epochOf who) :
    s.read hmac (some value) nowMs = s'.read hmac (some value) nowMs := by
  rw [read, read, Option.map_some]
  match hparts : value.splitOn DOT with
  | [expiry, who, given] =>
      have hepoch := h expiry who given hparts
      dsimp only
      rw [macText, macText, hepoch]
  | [] | [_] | [_, _] | _ :: _ :: _ :: _ :: _ => rfl

-- ── The texts under the MAC ──────────────────────────────────────────────────────

/-- No dot in a number. -/
theorem dot_not_mem_decimal (n : ℕ) : DOT ∉ decimal n := fun h =>
  absurd (isDigit_of_mem_decimal DOT h) (by decide)

/-- No dot in an integer. -/
theorem dot_not_mem_intText (n : ℤ) : DOT ∉ intText n := by
  rw [intText]
  split_ifs
  · intro h
    rcases List.mem_cons.mp h with h | h
    · exact absurd h (by decide)
    · exact dot_not_mem_decimal _ h
  · exact dot_not_mem_decimal _

/-- **What a session is checked against is the text of no other session, and of no sealed value.** -/
theorem checkedText_inj {expiry who : JsString} (hdigits : isDigits expiry = true) (hexpiry : DOT ∉ expiry)
    (hwho : DOT ∉ who) (s : UiSessions) :
    (∀ {s₀ : UiSessions} {x y}, s₀.macText x y = s.macText expiry who →
      x = expiry ∧ y = who ∧ s₀.epochOf y = s.epochOf who) ∧
    ∀ purpose x body, sealText purpose x body ≠ s.macText expiry who := by
  constructor
  · intro s₀ x y h
    obtain ⟨hx, hy, hepoch⟩ := dotted_inj hexpiry hwho (dot_not_mem_decimal _) h
    refine ⟨hx, hy, ?_⟩
    rw [← digitsValue_decimal (s₀.epochOf y), hepoch, digitsValue_decimal]
  · intro purpose x body h
    rw [isDigits, Bool.and_eq_true, List.all_eq_true] at hdigits
    cases expiry with
    | nil => exact Bool.false_ne_true hdigits.1
    | cons u expiry =>
        have hu := hdigits.2 u (List.mem_cons_self ..)
        have hhead := congrArg List.head? h
        have hs : (0x73 : UInt16) = u := Option.some.inj hhead
        subst hs
        exact absurd hu (by decide)

/-- No character of base64 is a dot. -/
theorem base64Char_ne_dot (v : ℕ) : base64Char v ≠ DOT := by
  by_cases hv : v < 64
  · interval_cases v <;> decide
  · rw [base64Char, if_neg (by omega), if_neg (by omega), if_neg (by omega), if_neg (by omega)]
    decide

/-- No dot in base64. -/
theorem dot_not_mem_base64Encode (bytes : Bytes) : DOT ∉ base64Encode bytes := by
  have hne : ∀ v, DOT ≠ base64Char v := fun v h => base64Char_ne_dot v h.symm
  have hpad : DOT ≠ 0x3D := by decide
  induction bytes using base64Encode.induct with
  | case1 => exact List.not_mem_nil
  | case2 a => simp [base64Encode, hne, hpad]
  | case3 a b => simp [base64Encode, hne, hpad]
  | case4 a b c rest ih => simp [base64Encode, hne, ih]

/-- No dot in its other alphabet. -/
theorem dot_not_mem_base64Url (bytes : Bytes) : DOT ∉ base64Url bytes := by
  intro h
  obtain ⟨u, hu, heq⟩ := List.mem_map.mp h
  split_ifs at heq with hplus hslash
  · exact absurd heq (by decide)
  · exact absurd heq (by decide)
  · subst heq
    exact dot_not_mem_base64Encode bytes (List.mem_of_mem_filter hu)

/-- No dot in a digest. -/
theorem dot_not_mem_hex (d : Digest) : DOT ∉ d.hex.1 := fun h =>
  absurd (d.hex.2.2 DOT h) (by decide)

/-- The three parts of a value, where none has a dot in it. -/
theorem parts_eq {value a b c x y z : JsString} (hsplit : value.splitOn DOT = [a, b, c])
    (h : value = dotted x y z) : x = a ∧ y = b ∧ z = c := by
  have hmem : ∀ part ∈ [a, b, c], DOT ∉ part := fun part hpart => not_mem_of_splitOn (hsplit ▸ hpart)
  exact dotted_inj (hmem a (by simp)) (hmem b (by simp)) (hmem c (by simp)) (h ▸ eq_dotted hsplit)

-- ── What is read ─────────────────────────────────────────────────────────────────

/-- **A viewer is read from a cookie issued to it**, neither expired nor signed out since. -/
theorem issued_of_read {calls before rest : List Call} {value : JsString} {nowMs : ℤ} {v : Viewer}
    (hideal : Ideal hmac s calls) (haccepted : ∀ call ∈ calls, call.Accepted)
    (hcalls : calls = before ++ .read (some value) nowMs :: rest)
    (h : (s.after before).read hmac (some value) nowMs = some v) :
    ∃ earlier t since, before = earlier ++ .issue v t :: since ∧
      value = ((s.after earlier).issue hmac v t).value ∧ .endAll v ∉ since ∧
      (|t + s.sessionMs| ≤ 2 ^ 53 → nowMs ≤ t + s.sessionMs) := by
  obtain ⟨expiry, who, hparts, hdigits, htime, hviewer⟩ := read_eq_some h
  obtain ⟨hwho, hv⟩ := whoOf_of_viewerOf hviewer
  have hmem : ∀ part ∈ [expiry, who], DOT ∉ part := by
    intro part hpart
    have hin : part ∈ value.splitOn DOT := by
      rw [hparts]
      exact List.mem_append_left [_] hpart
    exact not_mem_of_splitOn hin
  obtain ⟨hsession, hsealed⟩ := checkedText_inj hdigits (hmem expiry (by simp)) (hmem who (by simp))
    (s.after before)
  have hchecks : (s.after before).checks (.read (some value) nowMs) =
      some ((s.after before).macText expiry who, (hmac ((s.after before).macText expiry who)).hex.1) := by
    rw [checks, hparts]
  -- The MAC the value carries was given out, for this very text.
  obtain ⟨text, htext, hmacs⟩ := List.mem_map.mp (hideal.unforged before _ rest _ _ hcalls hchecks rfl)
  obtain ⟨earlier, call, since, rfl, hgives⟩ := mem_givenOut htext
  have hsame : text = (s.after (earlier ++ call :: since)).macText expiry who := by
    refine hideal.injective ?_ ?_ hmacs
    · show text ∈ s.textsOf calls
      rw [hcalls, List.append_assoc]
      exact mem_textsOf (.inl hgives)
    · show _ ∈ s.textsOf calls
      rw [hcalls]
      exact mem_textsOf (.inr ⟨_, hchecks⟩)
  cases call with
  | issue viewer t =>
      obtain ⟨hexpiry, hsameWho, hepoch⟩ := hsession ((Option.some.inj hgives).trans hsame)
      have haccept : viewer.Accepted := haccepted (.issue viewer t)
        (hcalls ▸ List.mem_append_left _ (List.mem_append_right _ (List.mem_cons_self ..)))
      obtain rfl := whoOf_inj haccept hv (hsameWho.trans hwho.symm)
      have hms : (s.after earlier).sessionMs = s.sessionMs := by rw [sessionMs, hours_after, sessionMs]
      refine ⟨earlier, t, since, rfl, ?_, fun hout => ?_, fun hbound => ?_⟩
      · rw [eq_dotted hparts, ← hsame, ← Option.some.inj hgives, ← hexpiry, ← hsameWho]
        rfl
      · have hlt := epochOf_lt_after (s := s.after earlier) hout
        rw [after_append, after_cons, ← hsameWho] at hepoch
        exact absurd hepoch (Nat.ne_of_lt hlt)
      · rw [← hexpiry, hms, stringToNumber_intText, JsNumber.ofRat_of_isDouble (isDouble_intCast hbound)] at htime
        have hle := not_lt.mp (of_decide_eq_false htime)
        exact_mod_cast hle
  | sealValue purpose payload t ttlMs => exact absurd ((Option.some.inj hgives).trans hsame) (hsealed _ _ _)
  | read | endAll | unsealValue => cases hgives

/-- **A cookie is read as the viewer it was issued to**, until it expires or that viewer signs out. -/
theorem read_issued {s₀ : UiSessions} {v : Viewer} {t nowMs : ℤ} (hv : viewerOf (whoOf v) = some v)
    (hwho : DOT ∉ whoOf v) (hepoch : s.epochOf (whoOf v) = s₀.epochOf (whoOf v))
    (hnonneg : 0 ≤ t + s₀.sessionMs) (hbound : |t + s₀.sessionMs| ≤ 2 ^ 53) (hnow : nowMs ≤ t + s₀.sessionMs) :
    s.read hmac (some (s₀.issue hmac v t).value) nowMs = some v := by
  have hparts := splitOn_dotted_of_not_mem (dot_not_mem_intText (t + s₀.sessionMs)) hwho
    (dot_not_mem_hex (hmac (s₀.macText (intText (t + s₀.sessionMs)) (whoOf v))))
  have hdigits : isDigits (intText (t + s₀.sessionMs)) = true := by
    rw [isDigits, intText, if_neg (not_lt.mpr hnonneg), Bool.and_eq_true, List.all_eq_true]
    refine ⟨?_, isDigit_of_mem_decimal⟩
    rw [Bool.not_eq_true', List.isEmpty_eq_false_iff]
    exact decimal_ne_nil _
  have hnumber : stringToNumber (intText (t + s₀.sessionMs)) = some (.fin _ (isDouble_intCast hbound)) := by
    rw [stringToNumber_intText, JsNumber.ofRat_of_isDouble (isDouble_intCast hbound)]
  have hmacs : s.macText (intText (t + s₀.sessionMs)) (whoOf v) = s₀.macText (intText (t + s₀.sessionMs)) (whoOf v) := by
    rw [macText, hepoch, macText]
  rw [read, Option.map_some, issue, hparts]
  dsimp only
  rw [if_neg, hv]
  · dsimp only
    rw [hmacs, if_pos (sameMac_iff.mpr rfl)]
  · rw [hdigits, hnumber]
    rintro (h | h | h)
    · exact h rfl
    · exact h rfl
    · have hlt := of_decide_eq_true h
      exact absurd hnow (not_le.mpr (by exact_mod_cast hlt))

/-- **Signing one viewer out changes what is read of no other's cookies.** -/
theorem read_endAll {v w : Viewer} (hv : v.Accepted) (hw : w.Accepted) (hne : w ≠ v) (s₀ : UiSessions)
    (t nowMs : ℤ) : (s.endAll v).read hmac (some (s₀.issue hmac w t).value) nowMs =
      s.read hmac (some (s₀.issue hmac w t).value) nowMs := by
  refine read_congr nowMs fun expiry who given hparts => ?_
  obtain ⟨-, hwho, -⟩ := parts_eq hparts rfl
  rw [epochOf_endAll, if_neg]
  intro heq
  exact hne (whoOf_inj hw hv (hwho.trans heq.symm))

/-- **A sealed value is no session**, and is not unsealed for another purpose. -/
theorem sealed_apart {calls before rest : List Call} {purpose payload : JsString} {t ttlMs : ℤ}
    (hinjective : Set.InjOn hmac {text | text ∈ s.textsOf calls})
    (hcalls : calls = before ++ .sealValue purpose payload t ttlMs :: rest) :
    (∀ earlier nowMs later, calls = earlier ++ .read (some (sealValue hmac purpose payload t ttlMs)) nowMs :: later →
      (s.after earlier).read hmac (some (sealValue hmac purpose payload t ttlMs)) nowMs = none) ∧
    ∀ earlier other nowMs later,
      calls = earlier ++ .unsealValue other (some (sealValue hmac purpose payload t ttlMs)) nowMs :: later →
      other ≠ purpose → unsealValue hmac other (some (sealValue hmac purpose payload t ttlMs)) nowMs = none := by
  have hgiven : sealText purpose (intText (t + ttlMs)) (base64Url (utf8Encode payload)) ∈ s.textsOf calls := by
    rw [hcalls]
    exact mem_textsOf (.inl rfl)
  constructor
  · intro earlier nowMs later hread
    rw [Option.eq_none_iff_forall_ne_some]
    intro v h
    obtain ⟨expiry, who, hparts, hdigits, -, -⟩ := read_eq_some h
    obtain ⟨rfl, rfl, hmacs⟩ := parts_eq hparts rfl
    have hchecked : (s.after earlier).macText (intText (t + ttlMs)) (base64Url (utf8Encode payload)) ∈
        s.textsOf calls := by
      rw [hread]
      refine mem_textsOf (.inr ⟨(hmac ((s.after earlier).macText (intText (t + ttlMs))
        (base64Url (utf8Encode payload)))).hex.1, ?_⟩)
      rw [checks, hparts]
    have htext := hinjective hgiven hchecked (Digest.hex_injective (Subtype.ext hmacs))
    exact (checkedText_inj hdigits (dot_not_mem_intText _) (dot_not_mem_base64Url _) _).2 _ _ _ htext
  · intro earlier other nowMs later hunseal hother
    rw [Option.eq_none_iff_forall_ne_some]
    intro found h
    obtain ⟨expiry, body, hparts⟩ := unseal_eq_some h
    obtain ⟨rfl, rfl, hmacs⟩ := parts_eq hparts rfl
    have hchecked : sealText other (intText (t + ttlMs)) (base64Url (utf8Encode payload)) ∈ s.textsOf calls := by
      rw [hunseal]
      refine mem_textsOf (.inr ⟨(hmac (sealText other (intText (t + ttlMs))
        (base64Url (utf8Encode payload)))).hex.1, ?_⟩)
      rw [checks, hparts]
    have htext := hinjective hgiven hchecked (Digest.hex_injective (Subtype.ext hmacs))
    exact hother (List.append_cancel_right (List.append_cancel_left htext)).symm

/-- **Sessions, over any calls**: a viewer is read only from a cookie issued to exactly that viewer,
    not expired, and not issued before it last signed out; signing one viewer out changes what is
    read of no other's cookies; and no sealed value is a session, or is unsealed for another purpose. -/
theorem sessions_sound (hmac : JsString → Digest) (hours : ℕ) (calls : List Call)
    (hideal : Ideal hmac (start hours) calls) (haccepted : ∀ call ∈ calls, call.Accepted) :
    (∀ before value nowMs rest v, calls = before ++ .read (some value) nowMs :: rest →
      ((start hours).after before).read hmac (some value) nowMs = some v →
      ∃ earlier t since, before = earlier ++ .issue v t :: since ∧
        value = (((start hours).after earlier).issue hmac v t).value ∧ .endAll v ∉ since ∧
        (|t + (start hours).sessionMs| ≤ 2 ^ 53 → nowMs ≤ t + (start hours).sessionMs)) ∧
    (∀ earlier w t since v rest, calls = earlier ++ .issue w t :: (since ++ .endAll v :: rest) → w ≠ v →
      ∀ nowMs, (((start hours).after (earlier ++ .issue w t :: since)).endAll v).read hmac
          (some (((start hours).after earlier).issue hmac w t).value) nowMs =
        ((start hours).after (earlier ++ .issue w t :: since)).read hmac
          (some (((start hours).after earlier).issue hmac w t).value) nowMs) ∧
    ∀ before purpose payload t ttlMs rest, calls = before ++ .sealValue purpose payload t ttlMs :: rest →
      (∀ earlier nowMs later,
        calls = earlier ++ .read (some (sealValue hmac purpose payload t ttlMs)) nowMs :: later →
        ((start hours).after earlier).read hmac (some (sealValue hmac purpose payload t ttlMs)) nowMs = none) ∧
      ∀ earlier other nowMs later,
        calls = earlier ++ .unsealValue other (some (sealValue hmac purpose payload t ttlMs)) nowMs :: later →
        other ≠ purpose → unsealValue hmac other (some (sealValue hmac purpose payload t ttlMs)) nowMs = none := by
  refine ⟨fun before value nowMs rest v hcalls h => issued_of_read hideal haccepted hcalls h,
    fun earlier w t since v rest hcalls hne nowMs => ?_,
    fun before purpose payload t ttlMs rest hcalls => sealed_apart hideal.injective hcalls⟩
  have hv : v.Accepted := haccepted (.endAll v) (by rw [hcalls]; simp)
  have hw : w.Accepted := haccepted (.issue w t) (by rw [hcalls]; simp)
  exact read_endAll hv hw hne _ t nowMs

-- ── A short run ──────────────────────────────────────────────────────────────────

/-- A MAC that tells short texts apart. -/
def numberMac (text : JsString) : Digest := numberHash (utf8Encode text)

/-- A customer of the toy sessions. -/
def acme : Viewer := .organization (js "acme") none

/-- The cookie a viewer is issued at first. -/
def firstCookie (viewer : Viewer) : JsString := ((start 12).issue numberMac viewer 0).value

/-- A value that was sealed for an invitation. -/
def invitation : JsString := sealValue numberMac (js "invite") (js "x") 0 1000

/-- The operator and an organization sign in, and something is sealed. -/
def signedIn : List Call :=
  [.issue .operator 0, .issue acme 0, .sealValue (js "invite") (js "x") 0 1000]

/-- The operator signs out, and its old cookie and the sealed value are presented. -/
def presented : List Call :=
  [.endAll .operator, .read (some (firstCookie .operator)) 1, .unsealValue (js "reset") (some invitation) 1]

/-- The codes of the run are made by the sessions alone. -/
theorem presented_ideal : Ideal numberMac (start 12) (signedIn ++ presented) where
  injective := by
    have hnodup : (((start 12).textsOf (signedIn ++ presented)).map numberMac).Nodup := by decide +kernel
    exact fun a ha b hb hab => List.inj_on_of_nodup_map hnodup ha hb hab
  unforged := by
    -- neither of the two values presented carries the right MAC
    have hwrong : ∀ i < 6, ∀ call ∈ (signedIn ++ presented)[i]?,
        ∀ p ∈ ((start 12).after ((signedIn ++ presented).take i)).checks call, p.2 ≠ (numberMac p.1).hex.1 := by
      decide +kernel
    intro before call rest text given hcalls hcheck hgiven
    have hsix : (signedIn ++ presented).length = 6 := rfl
    rw [hcalls, List.length_append, List.length_cons] at hsix
    have hcall : (signedIn ++ presented)[before.length]? = some call := by
      rw [hcalls, List.getElem?_append_right le_rfl, Nat.sub_self]
      rfl
    have hbefore : (signedIn ++ presented).take before.length = before := by
      rw [hcalls, List.take_left]
    exact absurd hgiven (hwrong before.length (by omega) call hcall (text, given) (by rw [hbefore]; exact hcheck))

/-- The old cookie is not the operator's any more, the organization's is read as before, and what was
    sealed for one purpose is not unsealed for another. -/
theorem sessions_sound_presented :
    (((start 12).endAll .operator).read numberMac (some (firstCookie .operator)) 1 ≠ some .operator) ∧
    ((start 12).endAll .operator).read numberMac (some (firstCookie acme)) 1
      = (start 12).read numberMac (some (firstCookie acme)) 1 ∧
    unsealValue numberMac (js "reset") (some invitation) 1 = none := by
  have haccepted : ∀ call ∈ signedIn ++ presented, call.Accepted := by
    intro call hcall
    simp only [signedIn, presented, List.cons_append, List.nil_append, List.mem_cons, List.not_mem_nil,
      or_false] at hcall
    rcases hcall with rfl | rfl | rfl | rfl | rfl | rfl
    · exact trivial
    · show isOrganizationId (js "acme") = true
      decide
    · exact trivial
    · exact trivial
    · exact trivial
    · exact trivial
  obtain ⟨hread, hother, hsealed⟩ := sessions_sound numberMac 12 (signedIn ++ presented) presented_ideal haccepted
  have hafter : (start 12).after (signedIn ++ [.endAll .operator]) = (start 12).endAll .operator := rfl
  have hother' := hother [.issue .operator 0] acme 0 [.sealValue (js "invite") (js "x") 0 1000] .operator
    [.read (some (firstCookie .operator)) 1, .unsealValue (js "reset") (some invitation) 1] rfl (by decide) 1
  have hsealed' := (hsealed [.issue .operator 0, .issue acme 0] (js "invite") (js "x") 0 1000 presented rfl).2
    (signedIn ++ [.endAll .operator, .read (some (firstCookie .operator)) 1]) (js "reset") 1 [] rfl (by decide)
  have hread' := hread (signedIn ++ [.endAll .operator])
    (firstCookie .operator) 1 [.unsealValue (js "reset") (some invitation) 1] .operator rfl
  rw [hafter] at hread'
  refine ⟨fun h => ?_, hother', hsealed'⟩
  obtain ⟨earlier, t, since, hissued, -, hout, -⟩ := hread' h
  change .issue .operator 0 :: [.issue acme 0, .sealValue (js "invite") (js "x") 0 1000, .endAll .operator]
    = earlier ++ .issue .operator t :: since at hissued
  -- a session of the operator is issued before it signs out, not after
  cases earlier with
  | nil =>
      rw [List.nil_append, List.cons.injEq] at hissued
      refine hout ?_
      rw [← hissued.2]
      simp
  | cons first earlier =>
      rw [List.cons_append, List.cons.injEq] at hissued
      have hmem : Call.issue .operator t ∈ [Call.issue acme 0, .sealValue (js "invite") (js "x") 0 1000,
          .endAll .operator] := by
        rw [hissued.2]
        simp
      simp [acme] at hmem

end UiSessions

end Sigillo
