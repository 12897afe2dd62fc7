import Lightfriend.Core.Bytes
import Lightfriend.Core.Table

/-! # The homeserver's database

A key-value store with one table for each column family. Writes are collected
in a batch and applied at once.
-/

namespace Lightfriend.Prune

/-- The required column families. -/
inductive Column
  | roomidShortstatehash
  | shortstatehashStatediff
  | shorteventidEventid
  | pduidPdu
  | eventidPduid
  | eventidOutlierpdu
  | eventidOriginalpdu
  | roomidTscountPducount
deriving DecidableEq, Repr

abbrev ColumnFamily := Table (Bytes × Bytes) Bytes Prod.fst

abbrev Database := Column → ColumnFamily

namespace Database

def getCf (db : Database) (cf : Column) (key : Bytes) : Option Bytes :=
  ((db cf).find? key).map Prod.snd

theorem getCf_eq_some_iff {db : Database} {cf : Column} {key value : Bytes} :
    db.getCf cf key = some value ↔ (key, value) ∈ db cf := by
  unfold getCf
  rw [Option.map_eq_some_iff]
  constructor
  · intro h
    obtain ⟨row, hrow, rfl⟩ := h
    obtain ⟨hmem, rfl⟩ := Table.find?_eq_some_iff.mp hrow
    exact hmem
  · intro h
    exact ⟨(key, value), Table.find?_eq_some_iff.mpr ⟨h, rfl⟩, rfl⟩

end Database

/-! ## Batches -/

inductive BatchOp
  | put (cf : Column) (key value : Bytes)
  | delete (cf : Column) (key : Bytes)
deriving DecidableEq

abbrev WriteBatch := List BatchOp

namespace BatchOp

def column : BatchOp → Column
  | put cf _ _ => cf
  | delete cf _ => cf

def key : BatchOp → Bytes
  | put _ key _ => key
  | delete _ key => key

def apply (db : Database) : BatchOp → Database
  | put cf key value =>
      Function.update db cf
        ((db cf).upsert (key, value) (fun row => (row.1, value)) (fun _ => rfl))
  | delete cf key => Function.update db cf ((db cf).deleteWhere (fun row => row.1 = key))

end BatchOp

/-- `db.write(batch)`. -/
def Database.write (db : Database) (batch : WriteBatch) : Database := batch.foldl BatchOp.apply db

/-- A batch leaves the column families it does not name as they are. -/
theorem Database.write_of_column {db : Database} {batch : WriteBatch} {cf : Column}
    (h : ∀ op ∈ batch, op.column ≠ cf) : db.write batch cf = db cf := by
  unfold Database.write
  induction batch generalizing db with
  | nil => rfl
  | cons op rest ih =>
      have hop := h op List.mem_cons_self
      have hsame : op.apply db cf = db cf := by
        cases op with
        | put other key value => exact Function.update_of_ne (Ne.symm hop) _ _
        | delete other key => exact Function.update_of_ne (Ne.symm hop) _ _
      rw [List.foldl_cons, ih (fun other hother => h other (List.mem_cons_of_mem _ hother)), hsame]

/-- After a batch of deletes a row is there exactly when it was and its key is not deleted. -/
theorem Database.mem_write_deletes {db : Database} {batch : WriteBatch} {cf : Column}
    (hdeletes : ∀ op ∈ batch, ∃ other key, op = .delete other key) {row : Bytes × Bytes} :
    row ∈ db.write batch cf ↔ row ∈ db cf ∧ BatchOp.delete cf row.1 ∉ batch := by
  unfold Database.write
  induction batch generalizing db with
  | nil => simp
  | cons op rest ih =>
      obtain ⟨other, key, rfl⟩ := hdeletes op List.mem_cons_self
      rw [List.foldl_cons, ih (fun op hop => hdeletes op (List.mem_cons_of_mem _ hop)),
        List.mem_cons, not_or]
      by_cases hcf : cf = other
      · subst hcf
        simp only [BatchOp.apply, Function.update_self, Table.mem_deleteWhere,
          decide_eq_false_iff_not, BatchOp.delete.injEq, true_and]
        tauto
      · simp only [BatchOp.apply, Function.update_of_ne hcf, BatchOp.delete.injEq, hcf, false_and,
          not_false_eq_true, true_and]

/-- After a batch of puts to different keys, the rows are those put and those of the other keys. -/
theorem Database.mem_write_puts {db : Database} {batch : WriteBatch} {cf : Column}
    (hputs : ∀ op ∈ batch, ∃ key value, op = .put cf key value)
    (hkeys : (batch.map BatchOp.key).Nodup) {row : Bytes × Bytes} :
    row ∈ db.write batch cf ↔
      BatchOp.put cf row.1 row.2 ∈ batch ∨ row ∈ db cf ∧ row.1 ∉ batch.map BatchOp.key := by
  unfold Database.write
  induction batch generalizing db with
  | nil => simp
  | cons op rest ih =>
      obtain ⟨key, value, rfl⟩ := hputs op List.mem_cons_self
      rw [List.map_cons, List.nodup_cons] at hkeys
      have hput : row ∈ BatchOp.apply db (.put cf key value) cf ↔
          row = (key, value) ∨ row ∈ db cf ∧ row.1 ≠ key := by
        simp only [BatchOp.apply, Function.update_self, Table.mem_upsert]
        constructor
        · rintro (⟨old, hold, rfl⟩ | ⟨-, rfl⟩)
          · split
            next hkey => exact Or.inl (Prod.ext hkey rfl)
            next hkey => exact Or.inr ⟨hold, hkey⟩
          · exact Or.inl rfl
        · rintro (rfl | ⟨hold, hkey⟩)
          · by_cases hhas : (db cf).HasKey key
            · obtain ⟨old, hold, hkey⟩ := Table.hasKey_iff.mp hhas
              exact Or.inl ⟨old, hold, by rw [if_pos hkey, hkey]⟩
            · exact Or.inr ⟨hhas, rfl⟩
          · exact Or.inl ⟨row, hold, (if_neg hkey).symm⟩
      rw [List.foldl_cons, ih (fun op hop => hputs op (List.mem_cons_of_mem _ hop)) hkeys.2, hput,
        List.mem_cons, List.map_cons, List.mem_cons, BatchOp.put.injEq]
      constructor
      · rintro (hrest | ⟨rfl | ⟨hold, hkey⟩, hnot⟩)
        · exact Or.inl (Or.inr hrest)
        · exact Or.inl (Or.inl ⟨rfl, rfl, rfl⟩)
        · exact Or.inr ⟨hold, not_or.mpr ⟨hkey, hnot⟩⟩
      · rintro ((⟨-, hkey, hvalue⟩ | hrest) | ⟨hold, hnot⟩)
        · have hrow : row = (key, value) := Prod.ext hkey hvalue
          exact Or.inr ⟨Or.inl hrow, by rw [hkey]; exact hkeys.1⟩
        · exact Or.inl hrest
        · obtain ⟨hkey, hnot⟩ := not_or.mp hnot
          exact Or.inr ⟨Or.inr ⟨hold, hkey⟩, hnot⟩

end Lightfriend.Prune
