import Sigillo.StoreTransactions

/-!
# Rows that stay

What has happened is never forgotten, and a receipt that is in the table stays there until its chain is
deleted (**`row_kept`**), whatever the store is asked to do. -/

namespace Sigillo

open Utf16Text JsonSchema HexBase64 IsoTime Relation

variable {c : Crypto} {u : Unicode} {key : WriterKey} {allowed : Kind → Prop} {s s' : Store}

theorem Commit.history_subset {k : Kind} (h : Commit c u key s k s') : s.history ⊆ s'.history := by
  cases h with
  | wrote => exact List.subset_append_left _ _
  | recovered => exact List.subset_append_left _ _
  | beside => exact List.Subset.refl _
  | deletedEmpty => exact List.subset_append_left _ _
  | erasedOperator => exact List.subset_append_left _ _
  | erasedOrganization => exact List.subset_append_left _ _
  | erasedSubject => exact List.Subset.refl _
  | erasedOpenings => exact List.subset_append_left _ _

theorem history_subset (h : Commits c u key allowed s s') : s.history ⊆ s'.history := by
  induction h with
  | refl => exact List.Subset.refl _
  | tail _ hlast ih =>
      obtain ⟨k, -, hcommit⟩ := hlast
      exact fun e he => hcommit.history_subset (ih he)

/-- A transaction that takes a receipt away deletes its chain. -/
theorem Commit.row_kept {k : Kind} (h : Commit c u key s k s') {row : ReceiptRow} (hrow : row ∈ s.db.receipts) :
    row ∈ s'.db.receipts ∨ .deletedChain row.systemId ∈ s'.history := by
  have hdeleted : ∀ {db : Database} {systemId : SystemId} {history : List Happening},
      db.receipts = s.db.receipts.filter (fun r => !(r.systemId == systemId)) →
      row ∈ db.receipts ∨ .deletedChain row.systemId ∈ history ++ [Happening.deletedChain systemId] := by
    intro db systemId history hreceipts
    by_cases hsame : row.systemId = systemId
    · exact .inr (List.mem_append_right _ (by rw [hsame]; exact List.mem_singleton_self _))
    · rw [hreceipts]
      exact .inl (List.mem_filter.mpr ⟨hrow, by simpa [Subtype.ext_iff] using hsame⟩)
  cases h with
  | wrote writes =>
      refine .inl ?_
      rw [show _ = _ from congrArg Database.receipts writes.db_eq]
      exact List.mem_append_left _ hrow
  | recovered ahead missing restores =>
      refine .inl ?_
      rw [show _ = _ from restores.receipts]
      exact List.mem_append_left _ hrow
  | beside h =>
      refine .inl ?_
      rw [show _ = _ from h.receipts]
      exact hrow
  | deletedEmpty only first noOpening deletes => exact hdeleted deletes.receipts
  | erasedOperator found own deletes => exact hdeleted deletes.receipts
  | erasedOrganization owned receipts =>
      rename_i organizationId records db _ _ _ _
      by_cases hany : records.any (fun record => record.systemId == row.systemId) = true
      · obtain ⟨record, hrecord, hsame⟩ := List.any_eq_true.mp hany
        refine .inr (List.mem_append_right _ (List.mem_map.mpr ⟨record, hrecord, ?_⟩))
        rw [beq_iff_eq.mp hsame]
      · refine .inl ?_
        show row ∈ db.receipts
        rw [receipts]
        exact List.mem_filter.mpr ⟨hrow, by simpa using hany⟩
  | erasedSubject receipts =>
      refine .inl ?_
      rw [show _ = _ from receipts]
      exact hrow
  | erasedOpenings receipts =>
      refine .inl ?_
      rw [show _ = _ from receipts]
      exact hrow

/-- **A receipt stays until its chain is deleted.** -/
theorem row_kept (h : Commits c u key allowed s s') {row : ReceiptRow}
    (hrow : row ∈ s.db.receipts ∨ .deletedChain row.systemId ∈ s.history) :
    row ∈ s'.db.receipts ∨ .deletedChain row.systemId ∈ s'.history := by
  induction h with
  | refl => exact hrow
  | tail _ hlast ih =>
      obtain ⟨k, -, hcommit⟩ := hlast
      rcases ih with hrow | hdeleted
      · exact hcommit.row_kept hrow
      · exact .inr (hcommit.history_subset hdeleted)

end Sigillo
