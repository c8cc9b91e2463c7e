import Sigillo.SignerWorld

/-!
# What holds over every run of the signer

Each step of a run keeps it sound: a line handled to its end, one cut short at any of its writes, a
start on whatever directory is there. From it, for every run:

* **`revealed_committed`**, **`revealed_unique`**, **`revealed_linked`** — what the signer reveals
  is committed, one receipt a position, linked to the one committed before it;
* **`checkpoint_covers_committed`** — a checkpoint is over everything committed for its system. -/

namespace Sigillo

open DoubleArith Utf16Text JsonText JsonParse JsonSchema HexBase64 IsoTime FileVolume AssocList

variable {c : Crypto} {options : SignerOptions} {ids : Set SystemId} {committed : List Receipt}

-- ── The directory ────────────────────────────────────────────────────────────────

/-- Files that are neither a state file nor a journal do not matter. -/
theorem OnDisk.frame {v v' : Volume} (h : OnDisk (c := c) ids committed v)
    (hstate : ∀ name, isStateName name → v'.read name = v.read name)
    (hjournal : ∀ s ∈ ids, v'.read (journalNameOf c s) = v.read (journalNameOf c s)) :
    OnDisk (c := c) ids committed v' where
  stateFile s hs := by
    rw [hstate _ (isStateName_fileNameOf c s)]
    exact h.stateFile s hs
  named name hname := by
    rw [hstate name hname]
    exact h.named name hname
  journal s hs := by
    rw [hjournal s hs]
    exact h.journal s hs

theorem OnDisk.aside {v : Volume} (h : OnDisk (c := c) ids committed v) (s : SystemId)
    (bytes : Bytes) : OnDisk (c := c) ids committed (v.write (temporaryNameOf c s) bytes) :=
  h.frame
    (fun _ hname => v.read_write_of_ne (ne_of_length_ne (by
      rw [length_of_isStateName hname, length_temporaryNameOf]; decide)) bytes)
    (fun t _ => v.read_write_of_ne (ne_of_length_ne (by
      rw [length_journalNameOf, length_temporaryNameOf]; decide)) bytes)

/-- What a system's journal holds. -/
def journalOf (c : Crypto) (v : Volume) (s : SystemId) : List Receipt :=
  journalReceipts ((v.read (journalNameOf c s)).getD [])

/-- **A journal may run ahead**: a receipt at a position not yet committed changes nothing. -/
theorem OnDisk.journalled {v : Volume} (hn : Named c ids) (h : OnDisk (c := c) ids committed v)
    {r : Receipt} (hr : r.systemId ∈ ids) (hseq : (chainOf committed r.systemId).length ≤ r.seq.1)
    {bytes : Bytes} (hbytes : journalReceipts bytes = journalOf c v r.systemId ∨
      journalReceipts bytes = journalOf c v r.systemId ++ [r]) :
    OnDisk (c := c) ids committed (v.write (journalNameOf c r.systemId) bytes) where
  stateFile s hs := by
    rw [v.read_write_of_ne (ne_of_length_ne (by
      rw [length_fileNameOf, length_journalNameOf]; decide))]
    exact h.stateFile s hs
  named name hname := by
    rw [v.read_write_of_ne (ne_of_length_ne (by
      rw [length_of_isStateName hname, length_journalNameOf]; decide))]
    exact h.named name hname
  journal s hs n hlt := by
    by_cases hsr : s = r.systemId
    · subst hsr
      rw [Volume.read_write_self, Option.getD_some, ← h.journal _ hs n hlt]
      rcases hbytes with heq | heq
      · rw [heq, journalOf]
      · rw [heq, lastAt_append, if_neg (by omega), journalOf]
    · rw [v.read_write_of_ne fun heq => hsr (hn.journalNameOf_injective c hs hr heq)]
      exact h.journal s hs n hlt

/-- **The rename commits.** -/
theorem OnDisk.commit {v : Volume} (hn : Named c ids) (h : OnDisk (c := c) ids committed v)
    {r : Receipt} {state : ChainState} (hr : r.systemId ∈ ids)
    (hseq : r.seq.1 = (chainOf committed r.systemId).length)
    (hkeeps : Keeps c r.systemId (chainOf committed r.systemId ++ [r]) state)
    (hlast : lastAt r.systemId r.seq.1 (journalOf c v r.systemId) = some r) :
    OnDisk (c := c) ids (committed ++ [r])
      ((v.remove (temporaryNameOf c r.systemId)).write (fileNameOf c r.systemId)
        (utf8Encode (serialize (.chain state)))) := by
  have hread : ∀ name, name ≠ fileNameOf c r.systemId → name ≠ temporaryNameOf c r.systemId →
      ((v.remove (temporaryNameOf c r.systemId)).write (fileNameOf c r.systemId)
        (utf8Encode (serialize (.chain state)))).read name = v.read name := by
    intro name h1 h2
    rw [Volume.read_write_of_ne _ h1, Volume.read_remove, if_neg h2]
  have hjournal : ∀ s, ((v.remove (temporaryNameOf c r.systemId)).write (fileNameOf c r.systemId)
      (utf8Encode (serialize (.chain state)))).read (journalNameOf c s)
        = v.read (journalNameOf c s) := fun s => hread _
    (ne_of_length_ne (by rw [length_journalNameOf, length_fileNameOf]; decide))
    (ne_of_length_ne (by rw [length_journalNameOf, length_temporaryNameOf]; decide))
  refine ⟨fun s hs => ?_, fun name hname hsome => ?_, fun s hs n hlt => ?_⟩
  · by_cases hsr : s = r.systemId
    · subst hsr
      rw [chainOf_append_self]
      exact .inr ⟨state, Volume.read_write_self _ _ _, hkeeps⟩
    · rw [chainOf_append_of_ne hsr, hread _ (fun heq => hsr (hn.fileNameOf_injective c hs hr heq))
        (ne_of_length_ne (by rw [length_fileNameOf, length_temporaryNameOf]; decide))]
      exact h.stateFile s hs
  · by_cases hfile : name = fileNameOf c r.systemId
    · exact ⟨_, hr, hfile⟩
    · rw [hread _ hfile (ne_of_length_ne (by
        rw [length_of_isStateName hname, length_temporaryNameOf]; decide))] at hsome
      exact h.named name hname hsome
  · rw [hjournal]
    by_cases hsr : s = r.systemId
    · subst hsr
      rw [chainOf_append_self] at hlt ⊢
      rw [List.length_append, List.length_singleton] at hlt
      by_cases hnew : n = (chainOf committed r.systemId).length
      · rw [hnew, List.getElem?_concat_length, ← hseq]
        exact hlast
      · rw [List.getElem?_append_left (by omega)]
        exact h.journal _ hs n (by omega)
    · rw [chainOf_append_of_ne hsr] at hlt ⊢
      exact h.journal s hs n hlt

-- ── What is signed ───────────────────────────────────────────────────────────────

/-- What is in memory has the frontier of the committed chain. -/
theorem InMemory.frontier {systems : Systems} (h : InMemory (c := c) committed systems)
    (s : SystemId) : MerkleTree.IsFrontier c.tree (frontierOf (knownChain systems s))
      (receiptHashes c (chainOf committed s)) := by
  rcases h s with ⟨hnil, hnone⟩ | ⟨state, hsome, hkeeps⟩
  · rw [hnil, knownChain, hnone]
    exact MerkleTree.isFrontier_empty _
  · rw [knownChain, hsome]
    exact hkeeps.frontier

/-- So the frontier always takes one entry more. -/
theorem InMemory.frontierAppend_ne_none {systems : Systems}
    (h : InMemory (c := c) committed systems) (s : SystemId) (entry : Digest) :
    frontierAppend c (frontierOf (knownChain systems s)) entry ≠ none := by
  obtain ⟨f, hf, -⟩ := MerkleTree.frontierAppend_spec c.tree (h.frontier s) entry
  rw [frontierAppend, hf]
  simp

/-- The position and the link a signature is given for are those after the committed chain. -/
theorem InMemory.expected {systems : Systems} (h : InMemory (c := c) committed systems)
    (s : SystemId) : expectedSeq (knownChain systems s) = (chainOf committed s).length ∧
      expectedPrev (knownChain systems s) = prevHashAfter c (chainOf committed s) := by
  rcases h s with ⟨hnil, hnone⟩ | ⟨state, hsome, hkeeps⟩
  · rw [hnil, knownChain, hnone]
    exact ⟨rfl, rfl⟩
  · rw [knownChain, hsome, prevHashAfter, hkeeps.head]
    exact ⟨hkeeps.seq.symm, hkeeps.hash⟩

/-- **What is signed is the next receipt of the committed chain.** -/
theorem Signs.follows {volume : Volume} {systems : Systems} {receipt : UnsignedReceipt}
    {writes : List Op} {state : ChainState} {sig : Signature} {hash : Hex 64}
    (hm : InMemory (c := c) committed systems)
    (h : Signs c options volume systems receipt writes state sig hash) :
    Follows c receipt.systemId (chainOf committed receipt.systemId) receipt where
  systemId := rfl
  seq := h.seq.trans (hm.expected _).1
  genesis := h.genesis
  prevHash := h.prevHash.trans (hm.expected _).2

/-- **And the state kept is of that chain with it.** -/
theorem Signs.keeps {volume : Volume} {systems : Systems} {receipt : UnsignedReceipt}
    {writes : List Op} {state : ChainState} {sig : Signature} {hash : Hex 64}
    (hm : InMemory (c := c) committed systems)
    (h : Signs c options volume systems receipt writes state sig hash) :
    Keeps c receipt.systemId (chainOf committed receipt.systemId ++ [receipt.signed sig])
      state := by
  obtain ⟨f, hf, hfrontier⟩ := MerkleTree.frontierAppend_spec c.tree (hm.frontier receipt.systemId)
    (receiptHash c receipt)
  have hstate : f = state.frontier := Option.some.inj (hf.symm.trans h.frontier)
  have hhead : state.head = receipt.signed sig := by rw [h.state_eq]
  refine ⟨by rw [h.state_eq], by rw [hhead, List.getLast?_append]; rfl, by rw [hhead]; rfl,
    by rw [hhead, h.state_eq]; rfl, ?_, ?_, ?_⟩
  · rw [List.length_append, List.length_singleton, ← (h.follows hm).seq, h.state_eq]
  · rw [hhead, h.state_eq]
    exact h.hash_eq
  · rw [receiptHashes, List.map_append, ← hstate]
    exact hfrontier

/-- Memory after a signature. -/
theorem InMemory.set {systems : Systems} (hm : InMemory (c := c) committed systems) {r : Receipt}
    {state : ChainState} (hkeeps : Keeps c r.systemId (chainOf committed r.systemId ++ [r]) state) :
    InMemory (c := c) (committed ++ [r]) (systems.set (.chain state)) := by
  intro s
  have hset : systems.set (.chain state) s
      = if s = r.systemId then some (.chain state) else systems s := by
    rw [← hkeeps.system]
    rfl
  rw [hset]
  by_cases hsr : s = r.systemId
  · subst hsr
    rw [if_pos rfl, chainOf_append_self]
    exact .inr ⟨state, rfl, hkeeps⟩
  · rw [if_neg hsr, chainOf_append_of_ne hsr]
    exact hm s

theorem Committed.append (h : Committed (c := c) ids committed) {r : Receipt}
    (hr : r.systemId ∈ ids)
    (hfollows : Follows c r.systemId (chainOf committed r.systemId) r.toUnsignedReceipt) :
    Committed (c := c) ids (committed ++ [r]) where
  chain s := by
    by_cases hsr : s = r.systemId
    · subst hsr
      rw [chainOf_append_self]
      exact (h.chain _).append hfollows
    · rw [chainOf_append_of_ne hsr]
      exact h.chain s
  systems t ht := by
    rcases List.mem_append.mp ht with ht | ht
    · exact h.systems t ht
    · rw [List.mem_singleton.mp ht]
      exact hr

/-- A system something was committed for is one of the run's. -/
theorem Committed.mem_ids (h : Committed (c := c) ids committed) {s : SystemId}
    (hne : chainOf committed s ≠ []) : s ∈ ids := by
  obtain ⟨r, hr⟩ := List.exists_mem_of_ne_nil _ hne
  obtain ⟨hmem, rfl⟩ := mem_chainOf.mp hr
  exact h.systems r hmem

-- ── A signature, stopped anywhere ────────────────────────────────────────────────

/-- The writes of a signature, made in full or cut short, leave the directory of the chain with or
    without the receipt: with it once the rename is made. -/
theorem OnDisk.signed {v : Volume} {systems : Systems} {receipt : UnsignedReceipt}
    {writes : List Op} {state : ChainState} {sig : Signature} {hash : Hex 64} (hn : Named c ids)
    (h : OnDisk (c := c) ids committed v) (hm : InMemory (c := c) committed systems)
    (hids : receipt.systemId ∈ ids)
    (hs : Signs c options v systems receipt writes state sig hash) (done : ℕ) (cut : Option ℕ) :
    OnDisk (c := c) ids (committed ++ if writes.length ≤ done then [receipt.signed sig] else [])
      (crashed v writes done cut) := by
  have hseq := (hs.follows hm).seq
  have hkeeps := hs.keeps hm
  have hwrites : writes = [.append (journalNameOf c receipt.systemId)
        (recordBytes ((v.read (journalNameOf c receipt.systemId)).getD []) (receipt.signed sig)),
      .replace (temporaryNameOf c receipt.systemId) (utf8Encode (serialize (.chain state))),
      .rename (temporaryNameOf c receipt.systemId) (fileNameOf c receipt.systemId)] := by
    rw [hs.writes_eq]
    simp only [put, SystemState.systemId, hkeeps.system]
    rfl
  have hrecorded := journalReceipts_record
    ((v.read (journalNameOf c receipt.systemId)).getD []) (receipt.signed sig)
  -- the directory once the journal's line is there
  have hline := h.journalled hn (r := receipt.signed sig) hids hseq.ge (.inr hrecorded)
  rw [show writes.length = 3 by rw [hwrites]; rfl, hwrites]
  rcases crashed_journalled v (journalNameOf c receipt.systemId)
    (temporaryNameOf c receipt.systemId) (fileNameOf c receipt.systemId)
    (recordBytes ((v.read (journalNameOf c receipt.systemId)).getD []) (receipt.signed sig))
    (utf8Encode (serialize (.chain state))) done cut with ⟨hdone, hv⟩ | ⟨hdone, hv⟩
  · rw [if_pos hdone, hv]
    refine (hline.aside receipt.systemId _).commit hn hids hseq hkeeps ?_
    rw [journalOf, Volume.read_write_of_ne _ (ne_of_length_ne (by
      rw [length_journalNameOf, length_temporaryNameOf]; decide)), Volume.read_write_self,
      Option.getD_some, hrecorded, lastAt_append, if_pos ⟨rfl, rfl⟩]
  · rw [if_neg (show ¬ 3 ≤ done by omega), List.append_nil]
    rcases hv with hv | ⟨n, hv⟩ | hv | ⟨n, hv⟩
    · rwa [hv]
    · rw [hv]
      exact h.journalled hn (r := receipt.signed sig) hids hseq.ge (journalReceipts_torn _ _ n)
    · rwa [hv]
    · rw [hv]
      exact hline.aside receipt.systemId _

-- ── Starting on a directory ──────────────────────────────────────────────────────

/-- The state a file was written from is the one read from it. -/
theorem Keeps.parse {s : SystemId} {state : ChainState} {read : SystemState}
    (h : Keeps c s (chainOf committed s) state) (hc : Committed (c := c) ids committed)
    (hread : parseStateFile c (utf8Decode (utf8Encode (serialize (.chain state)))) = .ok read) :
    read = .chain state := by
  have hlen := (hc.chain s).length_le
  rw [h.seq] at hlen
  exact parseStateFile_eq_ok c h.consistent (by omega) hread

/-- Starting removes what was written aside and nothing else. -/
theorem openFrom_read (files : List (JsString × Bytes)) (v : Volume) (systems : Systems)
    {name : JsString} (hname : ¬ isTemporary name) :
    (openFrom c files v systems).1.read name = v.read name := by
  induction files generalizing v systems with
  | nil => rfl
  | cons f rest ih =>
      obtain ⟨other, bytes⟩ := f
      rw [openFrom]
      split_ifs with htmp hstate
      · rw [ih, Volume.read_remove, if_neg]
        rintro rfl
        exact hname htmp
      · cases hparse : parseStateFile c (utf8Decode bytes) with
        | error e => rfl
        | ok state =>
            simp only
            split_ifs
            · rfl
            · exact ih v _
      · exact ih v systems

/-- Reading the files one after another: what is in memory is of the committed chains, and every
    committed chain is in memory or in a file still to be read. -/
theorem openFrom_memory (hn : Named c ids) (hc : Committed (c := c) ids committed)
    {files : List (JsString × Bytes)} {v : Volume} {systems opened : Systems}
    (hfiles : ∀ f ∈ files, isStateName f.1 → ∃ s ∈ ids, ∃ state, f.1 = fileNameOf c s ∧
      f.2 = utf8Encode (serialize (.chain state)) ∧ Keeps c s (chainOf committed s) state)
    (hloaded : ∀ s known, systems s = some known →
      ∃ state, known = .chain state ∧ Keeps c s (chainOf committed s) state)
    (hpending : ∀ s, chainOf committed s ≠ [] →
      systems s ≠ none ∨ fileNameOf c s ∈ files.map Prod.fst)
    (hopen : (openFrom c files v systems).2 = .ok opened) : InMemory (c := c) committed opened := by
  induction files generalizing v systems with
  | nil =>
      obtain rfl := Except.ok.inj hopen
      intro s
      cases hs : systems s with
      | none =>
          refine .inl ⟨?_, rfl⟩
          by_contra hne
          rcases hpending s hne with h | h
          · exact h hs
          · cases h
      | some known =>
          obtain ⟨state, rfl, hkeeps⟩ := hloaded s known hs
          exact .inr ⟨state, rfl, hkeeps⟩
  | cons f rest ih =>
      obtain ⟨name, bytes⟩ := f
      have hrest := fun f hf => hfiles f (List.mem_cons_of_mem _ hf)
      -- a file that is not a state file is none of those still to be read
      have hskip : ¬ isStateName name → ∀ s, chainOf committed s ≠ [] →
          systems s ≠ none ∨ fileNameOf c s ∈ rest.map Prod.fst := by
        intro hnot s hne
        refine (hpending s hne).imp_right fun h => ?_
        rcases List.mem_cons.mp h with h | h
        · rw [← show fileNameOf c s = name from h] at hnot
          exact absurd (isStateName_fileNameOf c s) hnot
        · exact h
      rw [openFrom] at hopen
      split_ifs at hopen with htmp hstate
      · exact ih hrest hloaded (hskip fun h => not_isTemporary_of_isStateName h htmp) hopen
      · obtain ⟨s, hs, state, hname, hbytes, hkeeps⟩ :=
          hfiles (name, bytes) (List.mem_cons_self ..) hstate
        simp only at hname hbytes
        cases hparse : parseStateFile c (utf8Decode bytes) with
        | error e => simp [hparse] at hopen
        | ok read =>
            rw [hbytes] at hparse
            obtain rfl := hkeeps.parse hc hparse
            rw [hbytes, hparse] at hopen
            simp only at hopen
            split_ifs at hopen
            have hset : ∀ t, systems.set (.chain state) t
                = if t = s then some (.chain state) else systems t := by
              intro t
              rw [← hkeeps.system]
              rfl
            refine ih hrest (fun t known ht => ?_) (fun t hne => ?_) hopen
            · rw [hset] at ht
              split_ifs at ht with hts
              · rw [hts]
                exact ⟨state, (Option.some.inj ht).symm, hkeeps⟩
              · exact hloaded t known ht
            · rw [hset]
              by_cases hts : t = s
              · rw [if_pos hts]
                exact .inl (by simp)
              · rw [if_neg hts]
                refine (hpending t hne).imp_right fun h => ?_
                rcases List.mem_cons.mp h with h | h
                · exact absurd (hn.fileNameOf_injective c (hc.mem_ids hne) hs (h.trans hname)) hts
                · exact h
      · exact ih hrest hloaded (hskip hstate) hopen

/-- **A start on a sound directory** loads the state of every committed chain, or fails. -/
theorem openDirectory_sound (hn : Named c ids) (hc : Committed (c := c) ids committed) {v : Volume}
    (hd : OnDisk (c := c) ids committed v) :
    OnDisk (c := c) ids committed (openDirectory c v).1 ∧
      ∀ systems, (openDirectory c v).2 = .ok systems → InMemory (c := c) committed systems := by
  refine ⟨hd.frame (fun name h => openFrom_read _ _ _ (not_isTemporary_of_isStateName h))
    (fun s _ => openFrom_read _ _ _ (not_isTemporary_journalNameOf c s)), fun systems hopen => ?_⟩
  refine openFrom_memory hn hc (fun f hf hname => ?_) (by simp) (fun s hne => .inr ?_) hopen
  · have hread := v.mem_files_iff.mp hf
    obtain ⟨s, hs, hfile⟩ := hd.named f.1 hname (by simp [hread])
    rcases hd.stateFile s hs with ⟨-, hnone⟩ | ⟨state, hsome, hkeeps⟩
    · rw [← hfile, hread] at hnone
      cases hnone
    · rw [← hfile, hread] at hsome
      exact ⟨s, hs, state, hfile, Option.some.inj hsome, hkeeps⟩
  · rcases hd.stateFile s (hc.mem_ids hne) with ⟨hnil, -⟩ | ⟨state, hsome, -⟩
    · exact absurd hnil hne
    · exact List.mem_map_of_mem (f := Prod.fst) (v.mem_files_iff.mpr hsome)

-- ── What is answered ─────────────────────────────────────────────────────────────

/-- The journal answers with a stretch of the committed chain. -/
theorem signerReceipts_committed {v : Volume} {systems : Systems}
    (hc : Committed (c := c) ids committed) (hd : OnDisk (c := c) ids committed v)
    (hm : InMemory (c := c) committed systems) {s : SystemId} {fromSeq limit : ℕ}
    {receipts : List Receipt}
    (h : signerReceipts c v systems s fromSeq limit = .ok receipts) :
    receipts = ((chainOf committed s).drop fromSeq).take limit := by
  rcases hm s with ⟨-, hnone⟩ | ⟨state, hsome, hkeeps⟩
  · simp [signerReceipts, knownChain, hnone] at h
  · simp only [signerReceipts, knownChain, hsome] at h
    rw [← Except.ok.inj h]
    refine receiptsOf_eq c hsome hkeeps.seq ?_ (hd.journal s (hc.mem_ids hkeeps.ne_nil)) _ _
    rw [← hkeeps.head, List.getLast?_eq_getElem?, hkeeps.seq, Nat.add_sub_cancel]

/-- **What a line is answered with is committed** by the time it is answered. -/
theorem handleLine_revealed {v : Volume} {systems : Systems} {now : Timestamp} {text : JsString}
    {reply : Reply} (hc : Committed (c := c) ids committed)
    (hd : OnDisk (c := c) ids committed v) (hm : InMemory (c := c) committed systems)
    (hreply : (handleLine c options v systems now text).reply = some reply) {r : Receipt}
    (hr : r ∈ revealed text reply) :
    r ∈ committed ++ (handleLine c options v systems now text).commits.toList := by
  rcases handleLine_cases c options v systems now text with ⟨code, error, id, h⟩ |
    ⟨id, request, hreq, h⟩
  · rw [h] at hreply
    obtain rfl := Option.some.inj hreply
    cases hr
  rw [h] at hreply ⊢
  refine List.mem_append.mpr ?_
  cases request with
  | pubkey =>
      obtain rfl := Option.some.inj hreply
      cases hr
  | getHead s =>
      obtain rfl := Option.some.inj hreply
      left
      rcases hm s with ⟨-, hnone⟩ | ⟨state, hsome, hkeeps⟩
      · simp [signerHead, knownChain, hnone, revealed] at hr
      · simp only [signerHead, knownChain, hsome, Option.map_some, revealed,
          List.mem_singleton] at hr
        rw [hr]
        exact (mem_chainOf.mp (List.mem_of_getLast? hkeeps.head)).1
  | checkpoint s =>
      unfold handleRequest at hreply
      cases hcp : checkpoint c options systems now s with
      | error r =>
          simp only [hcp, Option.some.injEq] at hreply
          subst hreply
          cases hr
      | ok made =>
          cases made with
          | none => simp [hcp] at hreply
          | some made =>
              simp only [hcp, Option.some.injEq] at hreply
              subst hreply
              cases hr
  | getReceipts s fromSeq limit =>
      unfold handleRequest at hreply
      cases hrs : signerReceipts c v systems s fromSeq.1 limit.1 with
      | error r =>
          simp only [hrs, Option.some.injEq] at hreply
          subst hreply
          cases hr
      | ok receipts =>
          simp only [hrs, Option.some.injEq] at hreply
          subst hreply
          rw [revealed, signerReceipts_committed hc hd hm hrs] at hr
          exact .inl (mem_chainOf.mp (List.mem_of_mem_drop (List.mem_of_mem_take hr))).1
  | signReceipt receipt =>
      unfold handleRequest at hreply ⊢
      cases ho : signReceipt c options v systems now receipt with
      | refused r =>
          simp only [ho, Option.some.injEq] at hreply
          subst hreply
          cases hr
      | failed writes => simp [ho] at hreply
      | signed writes state sig hash =>
          simp only [ho, Option.some.injEq] at hreply
          subst hreply
          simp only [revealed, hreq, List.mem_singleton] at hr
          right
          simp only [ho, Option.toList_some, List.mem_singleton]
          rw [hr, (signReceipt_signed c options ho).state_eq]

/-- **A checkpoint is over everything committed** for its system. -/
theorem handleLine_checkpoint {v : Volume} {systems : Systems} {now : Timestamp} {text : JsString}
    {id : RequestId} {made : Checkpoint} (hm : InMemory (c := c) committed systems)
    (hreply : (handleLine c options v systems now text).reply = some (.checkpoint id made)) :
    made.treeSize.1 = (chainOf committed made.systemId).length ∧
      made.rootHash = (merkleRoot c (receiptHashes c (chainOf committed made.systemId))).hex := by
  rcases handleLine_cases c options v systems now text with ⟨code, error, id, h⟩ |
    ⟨id, request, hreq, h⟩
  · rw [h] at hreply
    cases Option.some.inj hreply
  rw [h] at hreply
  cases request with
  | pubkey => cases Option.some.inj hreply
  | getHead s => cases Option.some.inj hreply
  | getReceipts s fromSeq limit =>
      unfold handleRequest at hreply
      cases hrs : signerReceipts c v systems s fromSeq.1 limit.1 <;> simp [hrs] at hreply
  | signReceipt receipt =>
      unfold handleRequest at hreply
      cases ho : signReceipt c options v systems now receipt <;> simp [ho] at hreply
  | checkpoint s =>
      unfold handleRequest at hreply
      rcases hm s with ⟨-, hnone⟩ | ⟨state, hsome, hkeeps⟩
      · simp [checkpoint, knownChain, hnone] at hreply
      · simp only [checkpoint, knownChain, hsome] at hreply
        split_ifs at hreply with hsize
        · obtain ⟨-, rfl⟩ := Reply.checkpoint.inj (Option.some.inj hreply)
          refine ⟨hkeeps.frontier.1.trans (length_receiptHashes c _), ?_⟩
          show (MerkleTree.frontierRoot c.tree state.frontier).hex = _
          rw [MerkleTree.frontierRoot_eq c.tree hkeeps.frontier]
          rfl

-- ── Steps and runs ───────────────────────────────────────────────────────────────

theorem Sound.start : Sound (c := c) ids World.start where
  committed := ⟨fun s => isChain_nil s, by simp [World.start]⟩
  disk := ⟨fun s _ => .inl ⟨rfl, rfl⟩, fun name _ h => absurd rfl h, fun s _ n h => by cases h⟩
  memory := by simp [World.start]
  revealed := by
    rintro r ⟨e, he, -⟩
    cases he

/-- The line of an event, if it has one. -/
def Event.text : Event → Option JsString
  | .line _ text | .crash _ text _ _ => some text
  | .restart => none

/-- An event that asks a signature names one of the run's systems. -/
theorem signsFor_of_requestIn {e : Event} {text : JsString} {receipt : UnsignedReceipt}
    (he : e.text = some text) (hreq : requestIn text = some (.signReceipt receipt))
    (hwf : isWellFormed receipt.systemId.1 = true) : e.signsFor = some receipt.systemId := by
  cases e with
  | restart => cases he
  | line now t | crash now t done cut =>
      obtain rfl := Option.some.inj he
      simp [Event.signsFor, hreq, hwf]

/-- Writes made to their end are writes not cut short. -/
theorem crashed_length (v : Volume) (writes : List Op) :
    crashed v writes writes.length none = applyAll v writes := by
  simp [crashed]

variable (options) in
/-- **What a line does to a sound directory and memory**, whether it is handled to its end or cut
    short anywhere. -/
theorem Sound.handled (hn : Named c ids) {w : World} (h : Sound (c := c) ids w)
    {systems : Systems} (hp : w.process = some systems) (now : Timestamp) (text : JsString)
    {handled : Handled} (heq : handleLine c options w.volume systems now text = handled)
    (hids : ∀ receipt, requestIn text = some (.signReceipt receipt) →
      isWellFormed receipt.systemId.1 = true → receipt.systemId ∈ ids) :
    (∀ done cut, OnDisk (c := c) ids
      (w.committed ++ if handled.writes.length ≤ done then handled.commits.toList else [])
      (crashed w.volume handled.writes done cut)) ∧
    Committed (c := c) ids (w.committed ++ handled.commits.toList) ∧
    InMemory (c := c) (w.committed ++ handled.commits.toList) handled.systems := by
  have hm := h.memory systems hp
  rcases handleLine_effect c options w.volume systems now text with ⟨reply, hhl⟩ |
    ⟨id, receipt, writes, state, sig, hash, hreq, hs, hhl⟩ | ⟨receipt, hnone⟩
  · rw [hhl] at heq
    subst heq
    refine ⟨fun done cut => ?_, ?_, ?_⟩
    · simpa [crashed, applyAll] using h.disk
    · simpa using h.committed
    · simpa using hm
  · rw [hhl] at heq
    subst heq
    have hr := hids receipt hreq hs.wellFormed
    exact ⟨fun done cut => h.disk.signed hn hm hr hs done cut,
      h.committed.append (r := receipt.signed sig) hr (hs.follows hm), hm.set (hs.keeps hm)⟩
  · exact absurd hnone (hm.frontierAppend_ne_none _ _)

theorem Sound.restart (hn : Named c ids) {w : World} (h : Sound (c := c) ids w) :
    Sound (c := c) ids (w.step c options .restart) := by
  obtain ⟨hd, hm⟩ := openDirectory_sound hn h.committed h.disk
  refine ⟨h.committed, hd, fun systems hs => hm systems ?_, h.revealed⟩
  cases hopen : (openDirectory c w.volume).2 <;> simp_all [World.step, Except.toOption]

/-- **Every step of a run keeps it sound.** -/
theorem Sound.step (hn : Named c ids) {w : World} (h : Sound (c := c) ids w) {e : Event}
    (he : ∀ s, e.signsFor = some s → s ∈ ids) : Sound (c := c) ids (w.step c options e) := by
  have hids : ∀ {text}, e.text = some text → ∀ receipt, requestIn text = some (.signReceipt receipt) →
      isWellFormed receipt.systemId.1 = true → receipt.systemId ∈ ids :=
    fun ht receipt hreq hwf => he _ (signsFor_of_requestIn ht hreq hwf)
  cases hp : w.process with
  | none =>
      cases e with
      | line now text => simpa [World.step, World.handled, hp] using h
      | crash now text done cut => simpa [World.step, World.handled, hp] using h
      | restart => exact h.restart hn
  | some systems =>
      cases e with
      | restart => exact h.restart hn
      | line now text =>
          obtain ⟨hd, hc, hm⟩ := h.handled options hn hp now text rfl (hids rfl)
          have hdisk := hd (handleLine c options w.volume systems now text).writes.length none
          rw [if_pos (le_refl _), crashed_length] at hdisk
          simp only [World.step, World.handled, hp, Option.map_some]
          refine ⟨hc, hdisk, fun live hlive => ?_, ?_⟩
          · simp only at hlive
            split_ifs at hlive
            obtain rfl := Option.some.inj hlive
            exact hm
          · rintro r ⟨exchange, hmem, hr⟩
            rcases List.mem_append.mp hmem with hmem | hmem
            · exact List.mem_append_left _ (h.revealed r ⟨exchange, hmem, hr⟩)
            · obtain ⟨reply, hreply, rfl⟩ := Option.map_eq_some_iff.mp (Option.mem_toList.mp hmem)
              exact handleLine_revealed h.committed h.disk (h.memory systems hp) hreply hr
      | crash now text done cut =>
          obtain ⟨hd, hc, -⟩ := h.handled options hn hp now text rfl (hids rfl)
          simp only [World.step, World.handled, hp, Option.map_some]
          refine ⟨?_, hd done cut, fun live hlive => ?_, fun r hr =>
            List.mem_append_left _ (h.revealed r hr)⟩
          · split_ifs
            · exact hc
            · simpa using h.committed
          · cases hlive

variable (options) in
/-- **Every run is sound.** -/
theorem sound_run (events : List Event) (hsha : Set.InjOn c.sha256 (idBytes '' signedFor events)) :
    Sound (c := c) (signedFor events) (World.run c options events) := by
  have hn : Named c (signedFor events) := by
    refine ⟨?_, hsha⟩
    rintro s ⟨e, -, he⟩
    cases e with
    | restart => cases he
    | line now text | crash now text done cut =>
        simp only [Event.signsFor] at he
        split at he
        · split_ifs at he with hwf
          rw [← Option.some.inj he]
          exact hwf
        · cases he
  have hall : ∀ e ∈ events, ∀ s, e.signsFor = some s → s ∈ signedFor events :=
    fun e he s hs => ⟨e, he, hs⟩
  clear hsha
  generalize signedFor events = ids at hn hall
  rw [World.run]
  have hstart : Sound (c := c) ids World.start := .start
  generalize World.start = w at hstart
  induction events generalizing w with
  | nil => exact hstart
  | cons e es ih =>
      exact ih (fun e' he' => hall e' (List.mem_cons_of_mem _ he')) _
        (hstart.step hn (hall e (List.mem_cons_self ..)))

-- ── What the signer promises ─────────────────────────────────────────────────────

/-- **What is revealed is one committed chain**: for any requests in any order, stopped anywhere
    and started again, a revealed receipt is a committed one, the only one at its position, and
    linked to the one committed before it. -/
theorem revealed_one_chain (events : List Event)
    (hsha : Set.InjOn c.sha256 (idBytes '' signedFor events)) :
    (∀ r, (World.run c options events).Revealed r → r ∈ (World.run c options events).committed) ∧
    (∀ r s, (World.run c options events).Revealed r → (World.run c options events).Revealed s →
      r.systemId = s.systemId → r.seq.1 = s.seq.1 → r = s) ∧
    (∀ r, (World.run c options events).Revealed r → r.seq.1 = 0 →
      r.action.kind = .genesis ∧ r.prevHash = GENESIS_PREV_HASH) ∧
    (∀ r n, (World.run c options events).Revealed r → r.seq.1 = n + 1 →
      ∃ p, (p ∈ (World.run c options events).committed ∧ p.systemId = r.systemId ∧ p.seq.1 = n) ∧
        r.prevHash = receiptHashHex c p.toUnsignedReceipt ∧
        ∀ q ∈ (World.run c options events).committed, q.systemId = r.systemId → q.seq.1 = n →
          q = p) := by
  have h := sound_run options events hsha
  generalize World.run c options events = w at h
  have hat : ∀ r, w.Revealed r → (chainOf w.committed r.systemId)[r.seq.1]? = some r := by
    intro r hr
    obtain ⟨n, hn⟩ := List.mem_iff_getElem?.mp (mem_chainOf.mpr ⟨h.revealed r hr, rfl⟩)
    rwa [(h.committed.chain _).seq_eq hn]
  refine ⟨h.revealed, fun r s hr hs hsys hseq => ?_, fun r hr hzero => ?_, fun r n hr hsucc => ?_⟩
  · have h1 := hat r hr
    have h2 := hat s hs
    rw [hsys, hseq, h2] at h1
    exact (Option.some.inj h1).symm
  · have hf := h.committed.chain _ _ _ (hat r hr)
    refine ⟨hf.genesis.mp hzero, ?_⟩
    rw [hf.prevHash, hzero]
    rfl
  · have hr' := hat r hr
    have hf := h.committed.chain _ _ _ hr'
    have hlt : n < (chainOf w.committed r.systemId).length := by
      have := (List.getElem?_eq_some_iff.mp hr').1
      omega
    have hp := List.getElem?_eq_getElem hlt
    have hseq := (h.committed.chain _).seq_eq hp
    have hmem := mem_chainOf.mp (List.mem_of_getElem? hp)
    refine ⟨_, ⟨hmem.1, hmem.2, hseq⟩, ?_, fun q hq hqs hqn => ?_⟩
    · rw [hf.prevHash, hsucc, prevHashAfter_take c hp]
    · exact (h.committed.chain _).eq_of_seq (mem_chainOf.mpr ⟨hq, hqs⟩) (List.mem_of_getElem? hp)
        (hqn.trans hseq.symm)

-- A signer that journals its first receipt, dies, starts again and signs it.

def toyOptions : SignerOptions := ⟨toyKey, 1000, fun _ => []⟩

def genesisLine : JsString :=
  js "\x7b\"v\":2,\"id\":\"a\"," ++ js "\"method\":\"SIGN_RECEIPT\"," ++ js "\"receipt\":\x7b\"v\":1,"
    ++ js "\"system_id\":\"s\",\"seq\":0," ++ js "\"ts_event\":\"" ++ newYear.1
    ++ js "\",\"ts_received\":\"" ++ newYear.1 ++ js "\",\"actor\":\x7b\"agent\":\"a\"\x7d,"
    ++ js "\"action\":\x7b\"kind\":\"genesis\"," ++ js "\"name\":\"genesis\"\x7d,\"input_hash\":"
    ++ js "null,\"output_hash\":null," ++ js "\"outcome\":\"ok\",\"source\":"
    ++ js "\x7b\"type\":\"api\"\x7d,\"prev_hash\":\"" ++ List.replicate 64 0x30
    ++ js "\",\"key_id\":\"" ++ List.replicate 16 0x30 ++ js "\"\x7d\x7d"

def firstRun : List Event :=
  [.restart, .crash newYear genesisLine 1 none, .restart, .line newYear genesisLine]

/-- One system is signed for, so SHA-256 has nothing to tell apart. -/
theorem firstRun_injOn (c : Crypto) : Set.InjOn c.sha256 (idBytes '' signedFor firstRun) := by
  have hone : (signedFor firstRun).Subsingleton := by
    have hsame : ∀ e ∈ firstRun, e.signsFor = none ∨
        e.signsFor = (Event.line newYear genesisLine).signsFor := by
      intro e he
      simp only [firstRun, List.mem_cons, List.not_mem_nil, or_false] at he
      rcases he with rfl | rfl | rfl | rfl
      · exact .inl rfl
      · exact .inr rfl
      · exact .inl rfl
      · exact .inr rfl
    rintro s ⟨e, he, hs⟩ t ⟨e', he', ht⟩
    rcases hsame e he with h | h <;> rcases hsame e' he' with h' | h' <;> simp_all
  exact (hone.image _).injOn _

theorem firstRun_reveals : ((World.run toyCrypto toyOptions firstRun).exchanges.flatMap fun e =>
    revealed e.1 e.2).length = 1 := by decide +kernel

theorem firstRun_revealed :
    ∃ r, (World.run toyCrypto toyOptions firstRun).Revealed r ∧
      r ∈ (World.run toyCrypto toyOptions firstRun).committed := by
  obtain ⟨r, hr⟩ := List.length_pos_iff_exists_mem.mp
    (show 0 < _ by rw [firstRun_reveals]; decide)
  obtain ⟨e, he, hr⟩ := List.mem_flatMap.mp hr
  exact ⟨r, ⟨e, he, hr⟩, (revealed_one_chain firstRun (firstRun_injOn _)).1 r ⟨e, he, hr⟩⟩

theorem run_append (before after : List Event) :
    World.run c options (before ++ after) = after.foldl (World.step c options)
      (World.run c options before) := List.foldl_append ..

/-- Nothing is ever taken back. -/
theorem committed_step (w : World) (e : Event) :
    w.committed <+: (w.step c options e).committed := by
  cases e with
  | restart => exact List.prefix_rfl
  | line now text | crash now text done cut =>
      cases hp : w.handled c options now text with
      | none => simp only [World.step, hp]; exact List.prefix_rfl
      | some h => simp only [World.step, hp]; exact List.prefix_append ..

variable (c options) in
theorem committed_mono {before events : List Event} (h : before <+: events) :
    (World.run c options before).committed <+: (World.run c options events).committed := by
  obtain ⟨after, rfl⟩ := h
  rw [run_append]
  generalize World.run c options before = w
  induction after generalizing w with
  | nil => exact List.prefix_rfl
  | cons e es ih => exact (committed_step w e).trans (ih _)

theorem signedFor_mono {before events : List Event} (h : before <+: events) :
    signedFor before ⊆ signedFor events := fun _ ⟨e, he, hs⟩ => ⟨e, h.subset he, hs⟩

/-- A checkpoint of a run is over what was committed when it was signed. -/
theorem checkpoint_of_run {events : List Event}
    (hsha : Set.InjOn c.sha256 (idBytes '' signedFor events)) {now : Timestamp} {text : JsString}
    {made : Checkpoint}
    (h : (World.run c options events).SignsCheckpoint c options now text made) :
    made.treeSize.1 = (chainOf (World.run c options events).committed made.systemId).length ∧
      made.rootHash = (merkleRoot c (receiptHashes c
        (chainOf (World.run c options events).committed made.systemId))).hex := by
  have hsound := sound_run options events hsha
  obtain ⟨handled, id, hh, hreply⟩ := h
  obtain ⟨systems, hp, rfl⟩ := Option.map_eq_some_iff.mp hh
  exact handleLine_checkpoint (hsound.memory systems hp) hreply

/-- **A checkpoint covers everything committed for its system**, at any point of any run; and of
    two signed at any two points of one run, the smaller is over a prefix of the larger's
    entries. -/
theorem checkpoint_covers_committed (events : List Event)
    (hsha : Set.InjOn c.sha256 (idBytes '' signedFor events)) :
    (∀ before now text made, before <+: events →
      (World.run c options before).SignsCheckpoint c options now text made →
      made.treeSize.1 = (chainOf (World.run c options before).committed made.systemId).length ∧
        made.rootHash = (merkleRoot c (receiptHashes c
          (chainOf (World.run c options before).committed made.systemId))).hex) ∧
    (∀ before before' now now' text text' made made', before <+: events → before' <+: events →
      (World.run c options before).SignsCheckpoint c options now text made →
      (World.run c options before').SignsCheckpoint c options now' text' made' →
      made.systemId = made'.systemId → made.treeSize.1 ≤ made'.treeSize.1 →
      made.rootHash = (merkleRoot c ((receiptHashes c
        (chainOf (World.run c options before').committed made'.systemId)).take
          made.treeSize.1)).hex) := by
  have hone : ∀ before now text made, before <+: events →
      (World.run c options before).SignsCheckpoint c options now text made →
      made.treeSize.1 = (chainOf (World.run c options before).committed made.systemId).length ∧
        made.rootHash = (merkleRoot c (receiptHashes c
          (chainOf (World.run c options before).committed made.systemId))).hex :=
    fun before _ _ _ hb h =>
      checkpoint_of_run (hsha.mono (Set.image_mono (signedFor_mono hb))) h
  refine ⟨hone, fun before before' now now' text text' made made' hb hb' h h' hsys hle => ?_⟩
  obtain ⟨hsize, hroot⟩ := hone _ _ _ _ hb h
  obtain ⟨hsize', -⟩ := hone _ _ _ _ hb' h'
  have hlen : (chainOf (World.run c options before).committed made'.systemId).length
      = made.treeSize.1 := by rw [hsize, hsys]
  have hbegins : chainOf (World.run c options before).committed made'.systemId
      = (chainOf (World.run c options before').committed made'.systemId).take made.treeSize.1 := by
    rcases List.prefix_or_prefix_of_prefix hb hb' with hbb | hbb
    · obtain ⟨more, hmore⟩ := committed_mono c options hbb
      rw [← hmore, chainOf_append, List.take_left' hlen]
    · -- the later one is no larger, so nothing was committed between the two
      obtain ⟨more, hmore⟩ := committed_mono c options hbb
      rw [← hmore, chainOf_append, List.length_append] at hlen
      have hnil : chainOf more made'.systemId = [] := List.length_eq_zero_iff.mp (by omega)
      rw [← hmore, chainOf_append, hnil, List.append_nil, List.take_of_length_le (by omega)]
  rw [hroot, hsys, hbegins, receiptHashes_take]

def checkpointLine : JsString :=
  js "\x7b\"v\":2,\"id\":\"b\"," ++ js "\"method\":\"CHECKPOINT\"," ++ js "\"system_id\":\"s\"\x7d"

def Reply.checkpoint? : Reply → Option Checkpoint
  | .checkpoint _ made => some made
  | _ => none

theorem firstRun_signs : (((World.run toyCrypto toyOptions firstRun).handled toyCrypto toyOptions
    newYear checkpointLine).bind fun h => h.reply.bind Reply.checkpoint?).isSome = true := by
  decide +kernel

theorem firstRun_checkpoint : ∃ made, (World.run toyCrypto toyOptions firstRun).SignsCheckpoint
    toyCrypto toyOptions newYear checkpointLine made ∧ made.treeSize.1
      = (chainOf (World.run toyCrypto toyOptions firstRun).committed made.systemId).length := by
  obtain ⟨made, hmade⟩ := Option.isSome_iff_exists.mp firstRun_signs
  obtain ⟨handled, hh, hmade⟩ := Option.bind_eq_some_iff.mp hmade
  obtain ⟨reply, hreply, hmade⟩ := Option.bind_eq_some_iff.mp hmade
  have hsigns : (World.run toyCrypto toyOptions firstRun).SignsCheckpoint toyCrypto toyOptions
      newYear checkpointLine made := by
    cases reply with
    | checkpoint id other =>
        obtain rfl := Option.some.inj hmade
        exact ⟨handled, id, hh, hreply⟩
    | _ => cases hmade
  exact ⟨made, hsigns, ((checkpoint_covers_committed firstRun (firstRun_injOn _)).1
    firstRun newYear checkpointLine made List.prefix_rfl hsigns).1⟩

end Sigillo
