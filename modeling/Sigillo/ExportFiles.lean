import Sigillo.VerifierFacts

/-!
# The files of an export, written

One JSON text a line, the manifest indented. What is written reads back
(**`Export.readFrom_files`**): no line of JSON holds a line feed, none is blank, and the order of an
object's members is nothing a schema looks at. -/

namespace Sigillo

open DoubleArith Utf16Text JsonText JsonParse JsonSchema HexBase64

-- ── Lines ────────────────────────────────────────────────────────────────────────

/-- `${JSON.stringify(value)}\n` for each value, joined. -/
def jsonl (values : List Json) : JsString := values.flatMap fun v => stringify v ++ [0x0A]

/-- A text that begins with a brace is not blank. -/
theorem stringify_obj_not_blank (members : List (JsString × Json)) :
    (stringify (.obj members)).all isTrimmed = false := by
  cases members with
  | nil =>
      rw [stringify, stringifyAt]
      decide
  | cons m ms =>
      obtain ⟨k, v⟩ := m
      rw [stringify, stringifyAt, List.cons_append, List.cons_append, List.cons_append,
        List.cons_append, List.cons_append, List.cons_append, List.all_cons,
        show isTrimmed 0x7B = false by decide, Bool.false_and]

theorem jsonLines_jsonl {values : List Json} (hreg : ∀ v ∈ values, Regular v)
    (hobj : ∀ v ∈ values, ∃ members, v = .obj members) :
    jsonLines (jsonl values) = values.map stringify := by
  induction values with
  | nil => decide
  | cons v rest ih =>
      have hline := newline_not_mem_stringify v
      have hnot : (stringify v).all isTrimmed = false := by
        obtain ⟨members, rfl⟩ := hobj v (by simp)
        exact stringify_obj_not_blank members
      have htail := ih (fun w hw => hreg w (by simp [hw])) (fun w hw => hobj w (by simp [hw]))
      unfold jsonLines at htail ⊢
      rw [jsonl, List.flatMap_cons, List.append_assoc, List.singleton_append, splitLines_append,
        splitLines_of_not_mem hline, List.filter_append, List.filter_singleton, hnot]
      exact congrArg _ htail

/-- A text of a value reads as what the value is written for, whatever the order of its members
    and the white space after it. -/
theorem readsAs_of_sortKeys {α : Type} {codec : Codec α} {v : Json} {a : α} (hv : Regular v)
    (h : sortKeys v = sortKeys (codec.encode a)) (indent : ℕ) {ws : JsString}
    (hws : ∀ u ∈ ws, isWs u = true) : ReadsAs codec (stringifyAt indent 0 v ++ ws) a := by
  rw [ReadsAs, jsonParse_stringifyAt indent hv ws hws, Option.bind_some]
  exact (codec.decode_iff (.of_regular hv)).mpr h

/-- Every value the schema writes is an object. -/
def WritesObjects {α : Type} (codec : Codec α) : Prop :=
  ∀ a, ∃ members, codec.encode a = .obj members

/-- **Lines written for entries read as the entries.** -/
theorem linesRead_jsonl {α : Type} {codec : Codec α} (hobj : WritesObjects codec) {f : Json → Json}
    (hreg : ∀ v, Regular v → Regular (f v)) (hf : ∀ v, Regular v → sortKeys (f v) = sortKeys v)
    (hfobj : ∀ members, ∃ members', f (.obj members) = .obj members') (entries : List α) :
    LinesRead codec (jsonl (entries.map fun a => f (codec.encode a))) entries := by
  have hvalues : ∀ v ∈ entries.map fun a => f (codec.encode a), Regular v := by
    intro v hv
    obtain ⟨a, -, rfl⟩ := List.mem_map.mp hv
    exact hreg _ (codec.regular a)
  have hlines := jsonLines_jsonl hvalues fun v hv => by
    obtain ⟨a, -, rfl⟩ := List.mem_map.mp hv
    obtain ⟨members, hm⟩ := hobj a
    rw [hm]
    exact hfobj members
  rw [LinesRead, hlines, List.map_map, List.forall₂_map_left_iff, List.forall₂_same]
  intro a _
  have hread : ReadsAs codec (stringifyAt 0 0 (f (codec.encode a)) ++ []) a :=
    readsAs_of_sortKeys (hreg _ (codec.regular a)) (hf _ (codec.regular a)) 0 (by simp)
  rwa [List.append_nil] at hread

theorem linesRead_written {α : Type} {codec : Codec α} (hobj : WritesObjects codec)
    (entries : List α) : LinesRead codec (jsonl (entries.map codec.encode)) entries :=
  linesRead_jsonl (f := id) hobj (fun _ h => h) (fun _ _ => rfl) (fun members => ⟨members, rfl⟩)
    entries

theorem linesRead_canonical {α : Type} {codec : Codec α} (hobj : WritesObjects codec)
    (entries : List α) :
    LinesRead codec (jsonl (entries.map fun a => sortKeys (codec.encode a))) entries :=
  linesRead_jsonl (f := sortKeys) hobj (fun _ h => Regular.sortKeys h)
    (fun _ h => Regular.sortKeys_idem h)
    (fun members => ⟨_, sortKeys_obj members⟩) entries

-- ── The files ────────────────────────────────────────────────────────────────────

theorem writesObjects_receipt : WritesObjects receiptSchema := by
  intro r
  obtain ⟨ms, -, hr⟩ := receiptSchema_encode r
  exact ⟨_, hr⟩

/-- A file that is left out when it would be empty. -/
def unlessEmpty (text : JsString) : Option JsString := if text = [] then none else some text

@[simp] theorem unlessEmpty_getD (text : JsString) : (unlessEmpty text).getD [] = text := by
  unfold unlessEmpty
  split_ifs with h
  · exact h.symm
  · rfl

/-- **The files as the exporter writes them.** -/
def Export.files (x : Export) : Bundle where
  manifestJson := stringifyPretty (manifestSchema.encode x.manifest) ++ [0x0A]
  receiptsJsonl := jsonl (x.receipts.map fun r => sortKeys (receiptSchema.encode r))
  checkpointsJsonl := some (jsonl (x.checkpoints.map checkpointEntrySchema.encode))
  artifactsIndexJsonl := some (jsonl (x.artifactsIndex.map artifactsIndexEntrySchema.encode))
  openingsJsonl := unlessEmpty (jsonl (x.openings.map openingEntrySchema.encode))
  subjectsJsonl := unlessEmpty (jsonl (x.subjects.map subjectEntrySchema.encode))

/-- **What is written reads back.** -/
theorem Export.readFrom_files (x : Export) : x.ReadFrom x.files where
  manifest := readsAs_of_sortKeys (manifestSchema.regular _) rfl 2 (by decide)
  receipts := linesRead_canonical writesObjects_receipt x.receipts
  artifactsIndex := linesRead_written (fun _ => ⟨_, rfl⟩) x.artifactsIndex
  openings := by
    rw [files, unlessEmpty_getD]
    exact linesRead_written (fun _ => ⟨_, rfl⟩) x.openings
  subjects := by
    rw [files, unlessEmpty_getD]
    exact linesRead_written (fun _ => ⟨_, rfl⟩) x.subjects
  checkpoints := linesRead_written (fun _ => ⟨_, rfl⟩) x.checkpoints

/-- The files of a valid export are accepted. -/
theorem Export.Valid.verifyBundle_files {o : VerifyOptions} {c : Crypto} {x : Export}
    {keys : List (Hex 16 × Bytes)} {first last : Receipt} (hx : x.Valid o c keys first last) :
    Sigillo.verifyBundle o c x.files = .ok (x.verified keys first last) :=
  hx.verifyBundle x.readFrom_files

end Sigillo
