import Sigillo.WrittenReceipts
import Sigillo.DateOrder
import Sigillo.AssocList
import Sigillo.Fallible

/-!
# The daily export

At the end of its day an account that asked for it gets a file for each system that recorded
something. A file is named after its system, in the characters a file name may have, and one that is
there is left alone: so each system has its own file exactly where no two of them, and no file that
was there, take one name (**`dailyExports_own_iff`**). -/

namespace Sigillo

open DoubleArith Utf16Text JsonText JsonParse HexBase64 IsoTime Fallible AssocList

-- ── Names ────────────────────────────────────────────────────────────────────────

/-- `[A-Za-z0-9._-]`. -/
def isNameUnit (u : UInt16) : Bool :=
  isDigit u || decide (0x41 ≤ u.toNat ∧ u.toNat ≤ 0x5A) || decide (0x61 ≤ u.toNat ∧ u.toNat ≤ 0x7A)
    || u == 0x2E || u == 0x5F || u == 0x2D

/-- `systemId.replaceAll(/[^A-Za-z0-9._-]/g, "_")`. -/
def nameOf (systemId : JsString) : JsString := systemId.map fun u => if isNameUnit u then u else 0x5F

/-- A day of the years that four digits write, as `Intl` gives it of an instant. -/
structure LocalDay where
  year : ℕ
  month : ℕ
  day : ℕ
  isYear : 1000 ≤ year ∧ year < 10000
  isMonth : 1 ≤ month ∧ month ≤ 12
  isDay : 1 ≤ day ∧ day ≤ daysInMonth year month

namespace LocalDay

/-- `localDate`. -/
def text (today : LocalDay) : JsString := dateOf today.year today.month today.day

/-- The number of a day. -/
def number (today : LocalDay) : ℕ := dayNumber today.year today.month today.day

end LocalDay

/-- `fileNameFor`. -/
def fileNameFor (systemId : JsString) (day : JsString) : JsString := nameOf systemId ++ js "--" ++ day ++ js ".zip"

/-- The folder of an account: the organization's identifier, or `operator`. -/
def folderOf (owner : JsString) : JsString := if owner = [] then js "operator" else owner

/-- A text that is a date's. -/
def isDateText (s : JsString) : Bool :=
  s.length == 10 && (List.range 10).all fun i =>
    if i = 4 ∨ i = 7 then s[i]? == some 0x2D else s[i]?.map isDigit == some true

/-- The day of an export's file name, `/^([A-Za-z0-9._-]+)--(\d{4}-\d{2}-\d{2})\.zip$/`. -/
def fileDay (fileName : JsString) : Option JsString :=
  let front := fileName.take (fileName.length - 16)
  let day := (fileName.drop (fileName.length - 14)).take 10
  if 16 < fileName.length ∧ front.all isNameUnit = true ∧ isDateText day = true
      ∧ fileName = front ++ js "--" ++ day ++ js ".zip" then some day
  else none

-- ── The files ────────────────────────────────────────────────────────────────────

/-- An archive on the disk, and the system it is of; nothing reads that. -/
structure StoredArchive where
  of : SystemId
  zip : Bytes

/-- The export directory: by folder and name. -/
abbrev ExportFiles := List ((JsString × JsString) × StoredArchive)

/-- How many days are kept. -/
def KEEP_DAYS : ℕ := 30

/-- The first day whose files stay. -/
def oldestKept (today : LocalDay) : JsString :=
  (isoText (((today.number : ℤ) - KEEP_DAYS) * msPerDay - epochOffset)).take 10

/-- `pruneDailyExports`. -/
def pruneDailyExports (files : ExportFiles) (today : LocalDay) : ExportFiles :=
  files.filter fun file => !((fileDay file.1.2).any fun day => !lexLe (oldestKept today) day)

/-- What the store answers when a system's turn comes. -/
structure ExportTurn where
  record : SystemRow
  /-- `readChainInRange` over the day. -/
  inRange : List ReceiptRow
  /-- `archiveFromStore` over the day, which may throw. -/
  archive : Except JsString Bytes

namespace ExportTurn

/-- Whose system it is. -/
def owner (turn : ExportTurn) : JsString := turn.record.organizationId.getD []

/-- Where its archive goes. -/
def path (turn : ExportTurn) (today : LocalDay) : JsString × JsString :=
  (folderOf turn.owner, fileNameFor turn.record.systemId.1 today.text)

/-- A system with receipts in the day, of an account that asked for its export. -/
def isWanted (turn : ExportTurn) (enabled : List JsString) : Bool :=
  enabled.contains turn.owner && !turn.inRange.isEmpty

end ExportTurn

/-- One system's turn, and the files written by then. -/
def exportTurn (enabled : List JsString) (today : LocalDay) (s : ExportFiles × ℕ) (turn : ExportTurn) :
    Except JsString (ExportFiles × ℕ) :=
  if enabled.contains turn.owner = false then .ok s
  else if (s.1.lookup (turn.path today)).isSome then .ok s
  else if turn.inRange = [] then .ok s
  else turn.archive.map fun zip => (AssocList.set s.1 (turn.path today) ⟨turn.record.systemId, zip⟩, s.2 + 1)

/-- **`runDailyExports`**, on the local day and the local time of its instant. -/
def runDailyExports (enabled : List JsString) (today : Option LocalDay) (time : JsString) (turns : List ExportTurn)
    (files : ExportFiles) : Except JsString (ExportFiles × ℕ) :=
  match today with
  | none => .ok (files, 0)
  | some today =>
      if lexLe (js "23:59") (time.take 5) = false then .ok (files, 0)
      else if enabled = [] then .ok (files, 0)
      else (turns.foldlM (exportTurn enabled today) (files, 0)).map fun s => (pruneDailyExports s.1 today, s.2)

-- ── Today's files stay ───────────────────────────────────────────────────────────

theorem oldestKept_le (today : LocalDay) : lexLe (oldestKept today) today.text = true := by
  have hday : KEEP_DAYS ≤ today.number := by
    have hyear := daysBeforeYear_lt (show 1 < today.year from lt_of_lt_of_le (by norm_num) today.isYear.1)
    have hone : daysBeforeYear 1 + (if isLeapYear 1 then 366 else 365) = 731 := by decide
    rw [hone] at hyear
    show 30 ≤ daysBeforeYear today.year + _ + _
    omega
  have hbefore : today.number < 3652425 := by
    have hyear : daysBeforeYear today.year + (if isLeapYear today.year then 366 else 365) ≤ daysBeforeYear 10000 :=
      daysBeforeYear_lt today.isYear.2
    have hend : daysBeforeYear 10000 = 3652425 := by decide
    have hof := dayOfYear_lt today.isMonth.1 today.isMonth.2 today.isDay.1 today.isDay.2
    show daysBeforeYear today.year + _ + _ < _
    omega
  have hin : InFourDigitYears (((today.number : ℤ) - KEEP_DAYS) * msPerDay - epochOffset) := by
    have hkeep : 30 ≤ today.number := hday
    show 0 ≤ ((today.number : ℤ) - (30 : ℕ)) * (86400000 : ℕ) - epochOffset + epochOffset ∧
      ((today.number : ℤ) - (30 : ℕ)) * (86400000 : ℕ) - epochOffset + epochOffset < 315569520000000
    omega
  obtain ⟨year, month, day, ms, htext, hyear, hm1, hm12, hd1, hd, hms, htime⟩ := isoText_eq_layout hin
  have hoption : (layout year month day (ms / 3600000) (ms / 60000 % 60) (ms / 1000 % 60) (ms % 1000)).take 10
      = dateOf year month day := rfl
  rw [oldestKept, htext, hoption]
  refine dateOf_le today.isYear.2 hm1 hm12 hd1 hd today.isMonth.1 today.isMonth.2 today.isDay.1 today.isDay.2 ?_
  show dayNumber year month day ≤ today.number
  have htime' : ((today.number : ℤ) - (30 : ℕ)) * (86400000 : ℕ) - epochOffset + epochOffset
      = ((dayNumber year month day * 86400000 + ms : ℕ) : ℤ) := htime
  push_cast at htime'
  omega

theorem isDateText_text (today : LocalDay) : today.text.length = 10 := by
  rw [LocalDay.text, dateOf]
  simp

/-- A file of today's is not an old one. -/
theorem not_old (today : LocalDay) (systemId : JsString) :
    (fileDay (fileNameFor systemId today.text)).any (fun day => !lexLe (oldestKept today) day) = false := by
  rw [fileDay]
  have hlen : (fileNameFor systemId today.text).length = (nameOf systemId ++ js "--").length + 14 := by
    rw [fileNameFor, List.length_append, List.length_append, isDateText_text]
    rfl
  have hday : ((fileNameFor systemId today.text).drop ((fileNameFor systemId today.text).length - 14)).take 10
      = today.text := by
    rw [hlen, Nat.add_sub_cancel, fileNameFor, List.append_assoc (nameOf systemId ++ js "--"), List.drop_left,
      ← isDateText_text today, List.take_left]
  rw [hday]
  split
  · show (!lexLe (oldestKept today) today.text) = false
    rw [oldestKept_le]
    rfl
  · rfl

/-- **Today's files stay.** -/
theorem lookup_pruneDailyExports (files : ExportFiles) (today : LocalDay) (folder systemId : JsString) :
    (pruneDailyExports files today).lookup (folder, fileNameFor systemId today.text)
      = files.lookup (folder, fileNameFor systemId today.text) := by
  refine (lookup_filter (fun key => !((fileDay key.2).any fun day => !lexLe (oldestKept today) day)) files _).trans ?_
  rw [not_old]
  rfl

-- ── A run ────────────────────────────────────────────────────────────────────────

/-- **What a run makes of the files**: those that were there stay, every other is the archive of a system that was
    wanted, and every system that was wanted has a file of its name. -/
structure RunMakes (enabled : List JsString) (today : LocalDay) (turns : List ExportTurn) (before after : ExportFiles) :
    Prop where
  kept : ∀ path stored, before.lookup path = some stored → after.lookup path = some stored
  made : ∀ path stored, after.lookup path = some stored → before.lookup path = some stored ∨
    ∃ turn ∈ turns, turn.isWanted enabled = true ∧ turn.path today = path ∧ stored.of = turn.record.systemId ∧
      turn.archive = .ok stored.zip
  wanted : ∀ turn ∈ turns, turn.isWanted enabled = true → ∃ stored, after.lookup (turn.path today) = some stored

theorem exportTurn_makes {enabled : List JsString} {today : LocalDay} {s s' : ExportFiles × ℕ} {turn : ExportTurn}
    (h : exportTurn enabled today s turn = .ok s') : RunMakes enabled today [turn] s.1 s'.1 := by
  rw [exportTurn] at h
  by_cases howner : enabled.contains turn.owner = false
  · rw [if_pos howner] at h
    obtain rfl := Except.ok.inj h
    refine ⟨fun _ _ h => h, fun _ _ h => .inl h, fun t ht hwanted => ?_⟩
    rw [List.mem_singleton.mp ht, ExportTurn.isWanted, howner] at hwanted
    cases hwanted
  · rw [if_neg howner] at h
    cases hthere : s.1.lookup (turn.path today) with
    | some stored =>
        rw [hthere] at h
        obtain rfl := Except.ok.inj h
        refine ⟨fun _ _ h => h, fun _ _ h => .inl h, fun t ht _ => ⟨stored, ?_⟩⟩
        rw [List.mem_singleton.mp ht]
        exact hthere
    | none =>
        rw [hthere, if_neg (by exact Bool.false_ne_true)] at h
        by_cases hempty : turn.inRange = []
        · rw [if_pos hempty] at h
          obtain rfl := Except.ok.inj h
          refine ⟨fun _ _ h => h, fun _ _ h => .inl h, fun t ht hwanted => ?_⟩
          rw [List.mem_singleton.mp ht, ExportTurn.isWanted, hempty, Bool.and_eq_true_iff] at hwanted
          cases hwanted.2
        · rw [if_neg hempty] at h
          have hwanted : turn.isWanted enabled = true := by
            rw [ExportTurn.isWanted, Bool.not_eq_false _ |>.mp howner, List.isEmpty_eq_false_iff.mpr hempty]
            rfl
          obtain ⟨zip, hzip, rfl⟩ := map_eq_ok.mp h
          refine ⟨fun path stored hpath => ?_, fun path stored hpath => ?_, fun t ht _ => ⟨⟨turn.record.systemId, zip⟩, ?_⟩⟩
          · rw [lookup_set]
            by_cases heq : path = turn.path today
            · rw [heq, hthere] at hpath
              cases hpath
            · rw [beq_false_of_ne heq]
              exact hpath
          · rw [lookup_set] at hpath
            by_cases heq : path = turn.path today
            · rw [heq, beq_self_eq_true] at hpath
              have hstored := Option.some.inj hpath
              exact .inr ⟨turn, List.mem_singleton_self _, hwanted, heq.symm, hstored ▸ rfl, hstored ▸ hzip⟩
            · rw [beq_false_of_ne heq] at hpath
              exact .inl hpath
          · rw [List.mem_singleton.mp ht, lookup_set, beq_self_eq_true]
            rfl

theorem runMakes_foldlM {enabled : List JsString} {today : LocalDay} {turns : List ExportTurn} {s s' : ExportFiles × ℕ}
    (h : turns.foldlM (exportTurn enabled today) s = .ok s') : RunMakes enabled today turns s.1 s'.1 := by
  induction turns generalizing s with
  | nil =>
      obtain rfl := Except.ok.inj h
      exact ⟨fun _ _ h => h, fun _ _ h => .inl h, fun _ h => absurd h List.not_mem_nil⟩
  | cons turn turns ih =>
      rw [List.foldlM_cons] at h
      obtain ⟨s₁, hfirst, hrest⟩ := bind_eq_ok.mp h
      have hone := exportTurn_makes hfirst
      have hmore := ih hrest
      refine ⟨fun path stored hpath => hmore.kept _ _ (hone.kept _ _ hpath), fun path stored hpath => ?_,
        fun t ht hwanted => ?_⟩
      · rcases hmore.made path stored hpath with hthere | ⟨t, ht, hmade⟩
        · rcases hone.made path stored hthere with hold | ⟨t, ht, hmade⟩
          · exact .inl hold
          · exact .inr ⟨t, List.mem_cons.mpr (.inl (List.mem_singleton.mp ht)), hmade⟩
        · exact .inr ⟨t, List.mem_cons_of_mem _ ht, hmade⟩
      · rcases List.mem_cons.mp ht with rfl | ht
        · obtain ⟨stored, hstored⟩ := hone.wanted t (List.mem_singleton_self _) hwanted
          exact ⟨stored, hmore.kept _ _ hstored⟩
        · exact hmore.wanted t ht hwanted

-- ── A file of its own ────────────────────────────────────────────────────────────

/-- **Each system has its own file**: one that is its archive, with the bytes the store gave for it in this run where
    it was not there before. -/
def HaveTheirOwn (enabled : List JsString) (today : LocalDay) (turns : List ExportTurn) (before after : ExportFiles) :
    Prop :=
  ∀ turn ∈ turns, turn.isWanted enabled = true →
    ∃ stored, after.lookup (turn.path today) = some stored ∧ stored.of = turn.record.systemId ∧
      (before.lookup (turn.path today) = some stored ∨
        ∃ t ∈ turns, t.record.systemId = turn.record.systemId ∧ t.archive = .ok stored.zip)

/-- **Names apart**: no two systems that are wanted share a folder and a name, nor is a file of another system there
    under the name of one. -/
structure NamesApart (enabled : List JsString) (today : LocalDay) (turns : List ExportTurn) (files : ExportFiles) :
    Prop where
  each : ∀ a ∈ turns, ∀ b ∈ turns, a.isWanted enabled = true → b.isWanted enabled = true →
    folderOf a.owner = folderOf b.owner → nameOf a.record.systemId.1 = nameOf b.record.systemId.1 →
      a.record.systemId = b.record.systemId
  there : ∀ a ∈ turns, a.isWanted enabled = true → ∀ stored, files.lookup (a.path today) = some stored →
    stored.of = a.record.systemId

theorem path_eq_iff {a b : ExportTurn} {today : LocalDay} : a.path today = b.path today ↔
    folderOf a.owner = folderOf b.owner ∧ nameOf a.record.systemId.1 = nameOf b.record.systemId.1 := by
  rw [ExportTurn.path, ExportTurn.path, Prod.mk.injEq, fileNameFor, fileNameFor, List.append_assoc, List.append_assoc,
    List.append_assoc, List.append_assoc, List.append_left_inj]

/-- **After a run at its time each system that recorded something in the day has its own file** exactly where the
    names are apart. -/
theorem dailyExports_own_iff {enabled : List JsString} {today : LocalDay} {time : JsString} {turns : List ExportTurn}
    {before after : ExportFiles} {written : ℕ} (htime : lexLe (js "23:59") (time.take 5) = true)
    (hrun : runDailyExports enabled (some today) time turns before = .ok (after, written)) :
    HaveTheirOwn enabled today turns before after ↔ NamesApart enabled today turns before := by
  have hmakes : ∀ turn ∈ turns, turn.isWanted enabled = true → ∃ made : ExportFiles,
      RunMakes enabled today turns before made ∧ ∀ t : ExportTurn,
        after.lookup (t.path today) = made.lookup (t.path today) := by
    intro turn _ hwanted
    have hsome : enabled ≠ [] := by
      rintro rfl
      cases hwanted
    rw [runDailyExports] at hrun
    rw [if_neg (by rw [htime]; exact nofun), if_neg hsome] at hrun
    obtain ⟨s, hfold, heq⟩ := map_eq_ok.mp hrun
    obtain ⟨rfl, -⟩ := Prod.mk.inj heq
    exact ⟨s.1, runMakes_foldlM hfold, fun t => lookup_pruneDailyExports s.1 today _ _⟩
  constructor
  · intro hown
    refine ⟨fun a ha b hb hwantedA hwantedB hfolder hname => ?_, fun a ha hwanted stored hstored => ?_⟩
    · obtain ⟨x, hx, hxa, -⟩ := hown a ha hwantedA
      obtain ⟨y, hy, hyb, -⟩ := hown b hb hwantedB
      rw [path_eq_iff.mpr ⟨hfolder, hname⟩, hy] at hx
      rw [← hxa, ← hyb, Option.some.inj hx]
    · obtain ⟨made, hmade, hsame⟩ := hmakes a ha hwanted
      obtain ⟨x, hx, hxa, -⟩ := hown a ha hwanted
      rw [hsame, hmade.kept _ _ hstored] at hx
      rw [Option.some.inj hx]
      exact hxa
  · intro hapart turn hturn hwanted
    obtain ⟨made, hmade, hsame⟩ := hmakes turn hturn hwanted
    obtain ⟨stored, hstored⟩ := hmade.wanted turn hturn hwanted
    refine ⟨stored, (hsame turn).trans hstored, ?_⟩
    rcases hmade.made _ _ hstored with hold | ⟨other, hother, hwanted', hpath, hof, hzip⟩
    · exact ⟨hapart.there turn hturn hwanted stored hold, .inl hold⟩
    · obtain ⟨hfolder, hname⟩ := path_eq_iff.mp hpath
      have hsystem := hapart.each other hother turn hturn hwanted' hwanted hfolder hname
      exact ⟨hof.trans hsystem, .inr ⟨other, hother, hsystem, hzip⟩⟩

/-- A system's turn, with one receipt in the day and an archive that spells its name. -/
def toyTurn (systemId : SystemId) : ExportTurn where
  record := ⟨systemId, newYear, none, none, none⟩
  inRange := [receiptRow toyCrypto { toyGenesis with systemId }]
  archive := .ok (systemId.1.map UInt16.toUInt8)

theorem isYear_2026 : 1000 ≤ 2026 ∧ 2026 < 10000 := by decide

/-- The new year. -/
def toyDay : LocalDay := ⟨2026, 1, 1, isYear_2026, isMonth_one, isDay_one⟩

/-- Two systems whose names differ in a space. -/
def toyNames : List SystemId := [⟨js "a b", by decide⟩, ⟨js "a_b", by decide⟩]

/-- Two systems whose names stay apart. -/
def apartNames : List SystemId := [⟨js "a b", by decide⟩, ⟨js "a-b", by decide⟩]

/-- Each gets its own file, with its own archive. -/
theorem dailyExports_own_two : ∃ after written,
    runDailyExports [[]] (some toyDay) (js "23:59:00") (apartNames.map toyTurn) [] = .ok (after, written) ∧
    HaveTheirOwn [[]] toyDay (apartNames.map toyTurn) [] after := by
  refine ⟨_, _, rfl, (dailyExports_own_iff (show lexLe (js "23:59") ((js "23:59:00").take 5) = true by decide)
    rfl).mpr ⟨?_, fun _ _ _ _ h => absurd h (Option.some_ne_none _).symm⟩⟩
  have hnames : ∀ a ∈ apartNames, ∀ b ∈ apartNames, nameOf a.1 = nameOf b.1 → a = b := by decide
  intro a ha b hb _ _ _ hname
  obtain ⟨x, hx, rfl⟩ := List.mem_map.mp ha
  obtain ⟨y, hy, rfl⟩ := List.mem_map.mp hb
  exact hnames x hx y hy hname

/-- **One file for two systems**: the second finds its name taken and gets none. -/
theorem dailyExports_shared : ∃ after written,
    runDailyExports [[]] (some toyDay) (js "23:59:00") (toyNames.map toyTurn) [] = .ok (after, written) ∧
    ¬ HaveTheirOwn [[]] toyDay (toyNames.map toyTurn) [] after := by
  refine ⟨_, _, rfl, fun hown => ?_⟩
  obtain ⟨stored, hstored, hof, -⟩ := hown (toyTurn ⟨js "a_b", by decide⟩)
    (List.mem_cons_of_mem _ (List.mem_singleton_self _)) (by decide)
  have hstored := (lookup_pruneDailyExports _ toyDay _ _).symm.trans hstored
  cases hstored
  exact absurd (congrArg Subtype.val hof) (by decide)

end Sigillo
