import Sigillo.SpanFilter
import Sigillo.RecordableSpans

/-!
# What the filter keeps

Each name the server may read, after the filter: the names it keeps hold what they held
(**`get_filterAttributes_keep`**), a role's digest is of the first of its contents that is a string
(**`get_filterAttributes_digest`**), and nothing else is left. -/

namespace Sdk

open DoubleArith Utf16Text JsonText HexBase64 Sigillo
open Otlp (OtlpSpan OtlpSpanEvent SpanStatus AttributeMap)

-- ── Attributes ───────────────────────────────────────────────────────────────────

@[simp] theorem Attributes.get_set (a : Attributes) (key k : JsString) (value : AttributeValue) :
    (a.set key value).get k = if k == key then some value else a.get k :=
  AssocList.lookup_set a.1 key k value

theorem Attributes.get_set_of_ne (a : Attributes) {key k : JsString} (h : k ≠ key)
    (value : AttributeValue) : (a.set key value).get k = a.get k := by
  rw [get_set, if_neg (by simpa using h)]

@[simp] theorem Attributes.get_empty (k : JsString) : Attributes.empty.get k = none := rfl

/-- The text of a content: only a string is one. -/
def contentText : AttributeValue → Option JsString
  | .scalar (.string s) => some s
  | _ => none

/-- The text an entry holds as content of a role. -/
def contentOf (role : ArtifactRole) (entry : JsString × AttributeValue) : Option JsString :=
  if CONTENT_ATTRIBUTES.lookup entry.1 = some role then contentText entry.2 else none

/-- **The first of a role's contents that is a string**, in the order of the attributes. -/
def firstContent (attributes : Attributes) (role : ArtifactRole) : Option JsString :=
  attributes.1.findSome? (contentOf role)

-- ── Names ────────────────────────────────────────────────────────────────────────

theorem content_not_keep : ∀ entry ∈ CONTENT_ATTRIBUTES, entry.1 ∉ KEEP_ATTRIBUTES := by decide

theorem lookup_content_of_keep {k : JsString} (h : k ∈ KEEP_ATTRIBUTES) :
    CONTENT_ATTRIBUTES.lookup k = none := by
  cases hlookup : CONTENT_ATTRIBUTES.lookup k with
  | none => rfl
  | some role =>
      have hmem := (AssocList.lookup_eq_some_iff_mem (by decide)).mp hlookup
      exact absurd h (content_not_keep _ hmem)

theorem digest_not_keep (role : ArtifactRole) : DIGEST_ATTRIBUTE role ∉ KEEP_ATTRIBUTES := by
  cases role <;> decide

theorem nonce_not_keep (role : ArtifactRole) : NONCE_ATTRIBUTE role ∉ KEEP_ATTRIBUTES := by
  cases role <;> decide

theorem digest_inj {a b : ArtifactRole} : DIGEST_ATTRIBUTE a = DIGEST_ATTRIBUTE b ↔ a = b := by
  cases a <;> cases b <;> decide

theorem nonce_inj {a b : ArtifactRole} : NONCE_ATTRIBUTE a = NONCE_ATTRIBUTE b ↔ a = b := by
  cases a <;> cases b <;> decide

theorem digest_ne_nonce (a b : ArtifactRole) : DIGEST_ATTRIBUTE a ≠ NONCE_ATTRIBUTE b := by
  cases a <;> cases b <;> decide

-- ── One step ─────────────────────────────────────────────────────────────────────

section Step

variable (digest : ArtifactRole → JsString → ContentDigest) (kept : Attributes)
variable (entry : JsString × AttributeValue)

/-- **What one attribute adds**: the digest of a content not yet digested, an attribute that is
    kept, or nothing. -/
theorem filterAttribute_cases :
    (∃ role value, contentOf role entry = some value ∧ kept.get (DIGEST_ATTRIBUTE role) = none ∧
      (∀ other, contentOf other entry ≠ none → other = role) ∧ entry.1 ∉ KEEP_ATTRIBUTES ∧
      filterAttribute digest kept entry = kept.setDigest role (digest role value)) ∨
    (entry.1 ∈ KEEP_ATTRIBUTES ∧ (∀ role, contentOf role entry = none) ∧
      filterAttribute digest kept entry = kept.set entry.1 entry.2) ∨
    (entry.1 ∉ KEEP_ATTRIBUTES ∧
      (∀ role, contentOf role entry ≠ none → kept.get (DIGEST_ATTRIBUTE role) ≠ none) ∧
      filterAttribute digest kept entry = kept) := by
  obtain ⟨key, value⟩ := entry
  simp only [filterAttribute, contentOf]
  cases hrole : CONTENT_ATTRIBUTES.lookup key with
  | none =>
      by_cases hkeep : key ∈ KEEP_ATTRIBUTES
      · exact .inr (.inl ⟨hkeep, by simp, if_pos hkeep⟩)
      · exact .inr (.inr ⟨hkeep, by simp, if_neg hkeep⟩)
  | some role =>
      have hkeep : key ∉ KEEP_ATTRIBUTES := fun h => by
        rw [lookup_content_of_keep h] at hrole
        cases hrole
      cases hvalue : contentText value with
      | none =>
          refine .inr (.inr ⟨hkeep, by simp, ?_⟩)
          cases value with
          | list items => rfl
          | scalar v =>
              cases v with
              | string s => cases hvalue
              | _ => rfl
      | some text =>
          obtain rfl : value = .scalar (.string text) := by
            cases value with
            | list items => cases hvalue
            | scalar v =>
                cases v with
                | string s => rw [Option.some.inj hvalue]
                | _ => cases hvalue
          cases hseen : kept.get (DIGEST_ATTRIBUTE role) with
          | some v =>
              refine .inr (.inr ⟨hkeep, fun other hother => ?_, ?_⟩)
              · have hsame : role = other := by
                  by_contra hne
                  simp [hne] at hother
                rw [← hsame, hseen]
                simp
              · simp [hseen]
          | none =>
              refine .inl ⟨role, text, by simp, hseen, fun other hother => ?_, hkeep, by simp [hseen]⟩
              by_contra hne
              simp [Ne.symm hne] at hother

end Step

theorem get_setDigest (kept : Attributes) (role : ArtifactRole) (d : ContentDigest) (k : JsString) :
    (kept.setDigest role d).get k =
      if k = DIGEST_ATTRIBUTE role then some (.scalar (.string d.sha256.1))
      else if k = NONCE_ATTRIBUTE role ∧ d.nonce.isSome then
        d.nonce.map fun n => .scalar (.string n)
      else kept.get k := by
  rw [Attributes.setDigest]
  cases d.nonce with
  | none => simp
  | some nonce =>
      by_cases hk : k = NONCE_ATTRIBUTE role
      · subst hk
        simp [(digest_ne_nonce role role).symm]
      · simp [hk]

theorem get_setDigest_self (kept : Attributes) (role : ArtifactRole) (d : ContentDigest) :
    (kept.setDigest role d).get (DIGEST_ATTRIBUTE role) = some (.scalar (.string d.sha256.1)) ∧
    (kept.setDigest role d).get (NONCE_ATTRIBUTE role) =
      (d.nonce.map fun n => .scalar (.string n)).or (kept.get (NONCE_ATTRIBUTE role)) := by
  have hne : NONCE_ATTRIBUTE role ≠ DIGEST_ATTRIBUTE role := (digest_ne_nonce role role).symm
  refine ⟨by rw [get_setDigest, if_pos rfl], ?_⟩
  rw [get_setDigest, if_neg hne]
  cases d.nonce with
  | none => simp
  | some nonce => simp

theorem get_setDigest_of_ne (kept : Attributes) {role r : ArtifactRole} (h : role ≠ r)
    (d : ContentDigest) :
    (kept.setDigest r d).get (DIGEST_ATTRIBUTE role) = kept.get (DIGEST_ATTRIBUTE role) ∧
    (kept.setDigest r d).get (NONCE_ATTRIBUTE role) = kept.get (NONCE_ATTRIBUTE role) := by
  have hdigest : DIGEST_ATTRIBUTE role ≠ DIGEST_ATTRIBUTE r := fun heq => h (digest_inj.mp heq)
  have hnonce : NONCE_ATTRIBUTE role ≠ NONCE_ATTRIBUTE r := fun heq => h (nonce_inj.mp heq)
  have hcross : NONCE_ATTRIBUTE role ≠ DIGEST_ATTRIBUTE r := (digest_ne_nonce r role).symm
  constructor
  · rw [get_setDigest, if_neg hdigest, if_neg (fun hn => digest_ne_nonce role r hn.1)]
  · rw [get_setDigest, if_neg hcross, if_neg (fun hn => hnonce hn.1)]

-- ── A run of the filter ──────────────────────────────────────────────────────────

section Run

variable (digest : ArtifactRole → JsString → ContentDigest)

/-- The attributes after some more entries. -/
def filterFrom (kept : Attributes) (entries : List (JsString × AttributeValue)) : Attributes :=
  entries.foldl (filterAttribute digest) kept

theorem get_filterFrom_keep {k : JsString} (hk : k ∈ KEEP_ATTRIBUTES) {kept : Attributes}
    {entries : List (JsString × AttributeValue)} (hnd : (entries.map Prod.fst).Nodup) :
    (filterFrom digest kept entries).get k = (entries.lookup k).or (kept.get k) := by
  induction entries generalizing kept with
  | nil => rfl
  | cons entry rest ih =>
      obtain ⟨key, value⟩ := entry
      obtain ⟨hnot, hrest⟩ := List.nodup_cons.mp hnd
      have hstep : (filterAttribute digest kept (key, value)).get k
          = if k == key then some value else kept.get k := by
        rcases filterAttribute_cases digest kept (key, value) with
          ⟨role, text, -, -, -, hkey, h⟩ | ⟨-, -, h⟩ | ⟨hkey, -, h⟩
        · have hne : k ≠ key := fun heq => hkey (heq ▸ hk)
          have hdigest : k ≠ DIGEST_ATTRIBUTE role := fun heq => digest_not_keep role (heq ▸ hk)
          have hnonce : k ≠ NONCE_ATTRIBUTE role := fun heq => nonce_not_keep role (heq ▸ hk)
          rw [h, get_setDigest, if_neg hdigest, if_neg (fun h => hnonce h.1), if_neg (by simpa using hne)]
        · rw [h, Attributes.get_set]
        · have hne : k ≠ key := fun heq => hkey (heq ▸ hk)
          rw [h, if_neg (by simpa using hne)]
      rw [filterFrom, List.foldl_cons, ← filterFrom, ih hrest, hstep, List.lookup_cons]
      by_cases heq : k = key
      · subst heq
        have hnone : rest.lookup k = none := AssocList.lookup_of_not_mem hnot
        rw [hnone, beq_self_eq_true]
        rfl
      · rw [beq_false_of_ne heq]
        rfl

theorem get_filterFrom_digest (role : ArtifactRole) {kept : Attributes}
    (entries : List (JsString × AttributeValue)) :
    (filterFrom digest kept entries).get (DIGEST_ATTRIBUTE role) =
      (kept.get (DIGEST_ATTRIBUTE role)).or ((entries.findSome? (contentOf role)).map fun v =>
        .scalar (.string (digest role v).sha256.1)) := by
  induction entries generalizing kept with
  | nil => simp [filterFrom]
  | cons entry rest ih =>
      rw [filterFrom, List.foldl_cons, ← filterFrom, ih, List.findSome?_cons]
      rcases filterAttribute_cases digest kept entry with
        ⟨r, text, hcontent, hseen, hother, -, h⟩ | ⟨hkeep, hcontent, h⟩ | ⟨-, hcontent, h⟩
      · by_cases hr : role = r
        · subst hr
          rw [h, (get_setDigest_self _ _ _).1, hseen, hcontent]
          rfl
        · have hnone : contentOf role entry = none := by
            by_contra hne
            exact hr (hother role hne)
          rw [h, (get_setDigest_of_ne _ hr _).1, hnone]
      · have hne : DIGEST_ATTRIBUTE role ≠ entry.1 := fun heq => digest_not_keep role (heq ▸ hkeep)
        rw [h, Attributes.get_set_of_ne _ hne, hcontent role]
      · rw [h]
        cases hentry : contentOf role entry with
        | none => rfl
        | some v =>
            have hseen := hcontent role (by rw [hentry]; simp)
            obtain ⟨w, hw⟩ := Option.ne_none_iff_exists'.mp hseen
            rw [hw]
            rfl

theorem get_filterFrom_nonce (role : ArtifactRole) {kept : Attributes}
    (entries : List (JsString × AttributeValue)) :
    (filterFrom digest kept entries).get (NONCE_ATTRIBUTE role) =
      if (kept.get (DIGEST_ATTRIBUTE role)).isSome then kept.get (NONCE_ATTRIBUTE role)
      else ((entries.findSome? (contentOf role)).bind fun v =>
        (digest role v).nonce.map fun n => .scalar (.string n)).or (kept.get (NONCE_ATTRIBUTE role)) := by
  induction entries generalizing kept with
  | nil => simp [filterFrom]
  | cons entry rest ih =>
      rw [filterFrom, List.foldl_cons, ← filterFrom, ih, List.findSome?_cons]
      rcases filterAttribute_cases digest kept entry with
        ⟨r, text, hcontent, hseen, hother, -, h⟩ | ⟨hkeep, hcontent, h⟩ | ⟨-, hcontent, h⟩
      · by_cases hr : role = r
        · subst hr
          rw [h, (get_setDigest_self _ _ _).1, (get_setDigest_self _ _ _).2, hseen, hcontent]
          rfl
        · have hnone : contentOf role entry = none := by
            by_contra hne
            exact hr (hother role hne)
          rw [h, (get_setDigest_of_ne _ hr _).1, (get_setDigest_of_ne _ hr _).2, hnone]
      · have hne : DIGEST_ATTRIBUTE role ≠ entry.1 := fun heq => digest_not_keep role (heq ▸ hkeep)
        have hne' : NONCE_ATTRIBUTE role ≠ entry.1 := fun heq => nonce_not_keep role (heq ▸ hkeep)
        rw [h, Attributes.get_set_of_ne _ hne, Attributes.get_set_of_ne _ hne', hcontent role]
      · rw [h]
        cases hentry : contentOf role entry with
        | none => rfl
        | some v =>
            have hseen := hcontent role (by rw [hentry]; simp)
            have hsome := Option.isSome_iff_ne_none.mpr hseen
            rw [if_pos hsome, if_pos hsome]

theorem get_filterFrom_other {k : JsString} (hk : k ∉ KEEP_ATTRIBUTES)
    (hdigest : ∀ role, k ≠ DIGEST_ATTRIBUTE role) (hnonce : ∀ role, k ≠ NONCE_ATTRIBUTE role)
    {kept : Attributes} (entries : List (JsString × AttributeValue)) :
    (filterFrom digest kept entries).get k = kept.get k := by
  induction entries generalizing kept with
  | nil => rfl
  | cons entry rest ih =>
      rw [filterFrom, List.foldl_cons, ← filterFrom, ih]
      rcases filterAttribute_cases digest kept entry with
        ⟨r, text, -, -, -, -, h⟩ | ⟨hkeep, -, h⟩ | ⟨-, -, h⟩
      · rw [h, get_setDigest, if_neg (hdigest r), if_neg (fun hn => hnonce r hn.1)]
      · have hne : k ≠ entry.1 := fun heq => hk (heq ▸ hkeep)
        rw [h, Attributes.get_set_of_ne _ hne]
      · rw [h]

end Run

section Filter

variable {c : Crypto} {attributes : Attributes} {options : FilterOptions} {fresh : ArtifactRole → Nonce}
variable {traceId : Hex 32} {spanId : Hex 16}

/-- **A name that is kept holds what it held.** -/
theorem get_filterAttributes_keep {k : JsString} (hk : k ∈ KEEP_ATTRIBUTES) :
    (filterAttributes c attributes options fresh traceId spanId).get k = attributes.get k := by
  rw [filterAttributes, ← filterFrom, get_filterFrom_keep _ hk attributes.2, Attributes.get_empty,
    Option.or_none, Attributes.get]

/-- **A role's digest is of its first content.** -/
theorem get_filterAttributes_digest (role : ArtifactRole) :
    (filterAttributes c attributes options fresh traceId spanId).get (DIGEST_ATTRIBUTE role) =
      (firstContent attributes role).map fun v =>
        .scalar (.string (contentDigest c options fresh traceId spanId role v).sha256.1) := by
  rw [filterAttributes, ← filterFrom, get_filterFrom_digest, Attributes.get_empty, Option.none_or,
    firstContent]

theorem get_filterAttributes_nonce (role : ArtifactRole) :
    (filterAttributes c attributes options fresh traceId spanId).get (NONCE_ATTRIBUTE role) =
      (firstContent attributes role).bind fun v =>
        (contentDigest c options fresh traceId spanId role v).nonce.map fun n => .scalar (.string n) := by
  rw [filterAttributes, ← filterFrom, get_filterFrom_nonce, Attributes.get_empty, Option.isSome_none,
    if_neg (by simp), Attributes.get_empty, Option.or_none, firstContent]

/-- **Nothing else is left.** -/
theorem get_filterAttributes_other {k : JsString} (hk : k ∉ KEEP_ATTRIBUTES)
    (hdigest : ∀ role, k ≠ DIGEST_ATTRIBUTE role) (hnonce : ∀ role, k ≠ NONCE_ATTRIBUTE role) :
    (filterAttributes c attributes options fresh traceId spanId).get k = none := by
  rw [filterAttributes, ← filterFrom, get_filterFrom_other _ hk hdigest hnonce, Attributes.get_empty]

end Filter

end Sdk
