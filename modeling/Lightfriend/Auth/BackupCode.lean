import Lightfriend.Core.Database
import Lightfriend.Core.Table
import Lightfriend.Core.Transition

/-! # Backup codes

A verification loads the unused codes of the user, compares the given code with
one hash after the other, and marks the first match used in a statement of its
own. The statement names the row and nothing else, so it succeeds on a row that
another verification has marked in the meantime.
-/

namespace Lightfriend.Auth.BackupCode

structure PgTotpBackupCode where
  id : Int
  userId : Int
  codeHash : String
  used : Int
deriving DecidableEq, Repr

/-- `SET used = 1`. -/
def PgTotpBackupCode.marked (r : PgTotpBackupCode) : PgTotpBackupCode := { r with used := 1 }

theorem PgTotpBackupCode.marked_id (r : PgTotpBackupCode) : r.marked.id = r.id := rfl

abbrev Codes := Table PgTotpBackupCode Int PgTotpBackupCode.id

/-- A verification that has found a match and not marked it yet. -/
structure Match where
  number : Nat
  userId : Int
  code : String
  /-- `backup_code.id`. -/
  row : Int
deriving DecidableEq, Repr

structure State where
  codes : Codes
  found : List Match
  nextNumber : Nat
  /-- The verifications that have returned `true`. -/
  succeeded : List (Int × String)

def init (codes : Codes) : State := ⟨codes, [], 0, []⟩

inductive Action
  /-- Load the codes, in any order, and compare. -/
  | load (userId : Int) (code : String) (rows : List PgTotpBackupCode)
  | markUsed (number : Nat) (fate : StatementFate)
deriving DecidableEq, Repr

/-- The filters of the load. -/
def unused (userId : Int) (r : PgTotpBackupCode) : Bool :=
  decide (r.userId = userId) && decide (r.used = 0)

namespace State

def match? (s : State) (number : Nat) : Option Match :=
  s.found.find? (fun m => m.number = number)

/-- The loop over the loaded codes, up to the first match. -/
def check (verify : String → String → Bool) (s : State) (userId : Int) (code : String)
    (rows : List PgTotpBackupCode) : State :=
  match rows.find? (fun r => verify code r.codeHash) with
  | none => s
  | some r =>
      { s with
        found := s.found ++ [⟨s.nextNumber, userId, code, r.id⟩]
        nextNumber := s.nextNumber + 1 }

/-- `UPDATE totp_backup_codes SET used = 1 WHERE id = ..`. -/
def mark (s : State) (row : Int) : State :=
  { s with
    codes := s.codes.updateWhere (fun r => decide (r.id = row)) PgTotpBackupCode.marked
      PgTotpBackupCode.marked_id }

def finish (s : State) (m : Match) : State := { s with found := s.found.erase m }

def succeed (s : State) (m : Match) : State :=
  { s.mark m.row with
    found := s.found.erase m
    succeeded := (m.userId, m.code) :: s.succeeded }

end State

/-- `verify` is `bcrypt::verify`, an error counted as no match. -/
def step (verify : String → String → Bool) (s : State) : Action → Option State
  | .load userId code rows =>
      if rows.Perm (s.codes.rows.filter (unused userId)) then
        some (s.check verify userId code rows)
      else none
  | .markUsed number fate =>
      (s.match? number).map (fun m =>
        match fate with
        | .done => s.succeed m
        | .refused => s.finish m
        | .lost => (s.mark m.row).finish m)

/-- A stored code that is unused and matches. -/
def matching (verify : String → String → Bool) (userId : Int) (code : String)
    (r : PgTotpBackupCode) : Bool :=
  unused userId r && verify code r.codeHash

/-- A code succeeds at most as often as it matched an unused code of the store at the start. -/
def SucceedsAsOften (verify : String → String → Bool) (codes : Codes)
    (succeeded : List (Int × String)) : Prop :=
  ∀ userId code, succeeded.count (userId, code) ≤ codes.countWhere (matching verify userId code)

/-- The row of a match is marked before any other verification has marked it. -/
def MarkedFirst (s : State) : Action → Prop
  | .markUsed number .done =>
      ∀ m ∈ s.match? number, ∀ r ∈ s.codes.rows, r.id = m.row → r.used = 0
  | _ => True

instance (s : State) (a : Action) : Decidable (MarkedFirst s a) := by
  cases a with
  | load => exact isTrue trivial
  | markUsed number fate => cases fate <;> unfold MarkedFirst <;> infer_instance

/-! ## The invariant -/

structure Inv (verify : String → String → Bool) (codes : Codes) (s : State) : Prop where
  /-- A match is about a row of its user that the code verifies. -/
  matched : ∀ m ∈ s.found, ∃ r ∈ s.codes, r.id = m.row ∧ r.userId = m.userId ∧
    verify m.code r.codeHash = true
  /-- What has succeeded and what may still succeed was there at the beginning. -/
  counted : ∀ userId code, s.succeeded.count (userId, code) +
    s.codes.countWhere (matching verify userId code) ≤
      codes.countWhere (matching verify userId code)

variable {verify : String → String → Bool} {codes : Codes} {s : State}

theorem inv_init : Inv verify codes (init codes) where
  matched := fun _ h => by cases h
  counted := fun _ _ => by simp [init]

theorem match?_spec {number : Nat} {m : Match} (h : s.match? number = some m) : m ∈ s.found :=
  List.mem_of_find?_eq_some h

/-- A marked row stays the row of the matches about it. -/
theorem matched_mark (h : Inv verify codes s) (row : Int) :
    ∀ m ∈ s.found, ∃ r ∈ (s.mark row).codes, r.id = m.row ∧ r.userId = m.userId ∧
      verify m.code r.codeHash = true := by
  intro m hm
  obtain ⟨r, hr, hid, huser, hverify⟩ := h.matched m hm
  refine ⟨_, Table.exists_updateWhere PgTotpBackupCode.marked_id hr, ?_⟩
  split
  · exact ⟨hid, huser, hverify⟩
  · exact ⟨hid, huser, hverify⟩

/-- A marked row matches no code. -/
theorem not_matching_marked {userId : Int} {code : String} (r : PgTotpBackupCode) :
    matching verify userId code r.marked = false := by
  simp [matching, unused, PgTotpBackupCode.marked]

theorem count_mark (verify : String → String → Bool) (s : State) (userId : Int) (code : String) (row : Int) :
    (s.mark row).codes.countWhere (matching verify userId code) ≤
      s.codes.countWhere (matching verify userId code) := by
  have hnone : ∀ r ∈ s.codes, decide (r.id = row) = true →
      matching verify userId code r.marked = true → matching verify userId code r = true := by
    intro r _ _ hmatch
    rw [not_matching_marked] at hmatch
    cases hmatch
  exact Table.countWhere_updateWhere_le PgTotpBackupCode.marked_id hnone

theorem Inv.check (h : Inv verify codes s) {userId : Int} {code : String}
    {rows : List PgTotpBackupCode} (hperm : rows.Perm (s.codes.rows.filter (unused userId))) :
    Inv verify codes (s.check verify userId code rows) := by
  unfold State.check
  split
  next => exact h
  next r hfind =>
    have hload := List.mem_filter.mp (hperm.mem_iff.mp (List.mem_of_find?_eq_some hfind))
    have huser : r.userId = userId := by
      have hunused := hload.2
      simp only [unused, Bool.and_eq_true, decide_eq_true_eq] at hunused
      exact hunused.1
    constructor
    · intro m hm
      rcases List.mem_append.mp hm with hm | hm
      · exact h.matched m hm
      · rw [List.mem_singleton.mp hm]
        have hverify := List.find?_some hfind
        exact ⟨r, hload.1, rfl, huser, hverify⟩
    · exact h.counted

theorem Inv.fail (h : Inv verify codes s) (m : Match) : Inv verify codes (s.finish m) where
  matched := fun other hother => h.matched other (List.mem_of_mem_erase hother)
  counted := h.counted

theorem Inv.mark (h : Inv verify codes s) (row : Int) : Inv verify codes (s.mark row) where
  matched := matched_mark h row
  counted := by
    intro userId code
    have hcounted := h.counted userId code
    have hmark := count_mark verify s userId code row
    exact (Nat.add_le_add_left hmark _).trans hcounted

/-- A success takes the row that it marks out of those that may still succeed. -/
theorem Inv.succeed (h : Inv verify codes s) {m : Match} (hm : m ∈ s.found)
    (hunused : ∀ r ∈ s.codes.rows, r.id = m.row → r.used = 0) :
    Inv verify codes (s.succeed m) where
  matched := fun other hother => matched_mark h m.row other (List.mem_of_mem_erase hother)
  counted := by
    intro userId code
    have hcounted := h.counted userId code
    show ((m.userId, m.code) :: s.succeeded).count (userId, code) +
      (s.mark m.row).codes.countWhere (matching verify userId code) ≤ _
    rw [List.count_cons]
    by_cases hsame : (m.userId, m.code) = (userId, code)
    · obtain ⟨r, hr, hid, huser, hverify⟩ := h.matched m hm
      have hmatch : matching verify userId code r = true := by
        obtain ⟨rfl, rfl⟩ := Prod.mk.injEq .. ▸ hsame
        simp [matching, unused, huser, hunused r hr hid, hverify]
      have hless : (s.mark m.row).codes.countWhere (matching verify userId code) <
          s.codes.countWhere (matching verify userId code) := by
        refine Table.countWhere_updateWhere_lt PgTotpBackupCode.marked_id ?_ hr
          (decide_eq_true hid) hmatch (not_matching_marked r)
        intro other _ _ hother
        rw [not_matching_marked] at hother
        cases hother
      rw [if_pos (by simpa using hsame)]
      omega
    · have hmark := count_mark verify s userId code m.row
      rw [if_neg (by simpa using hsame)]
      omega

theorem inv_step {s t : State} {a : Action} (h : Inv verify codes s) (hok : MarkedFirst s a)
    (hstep : step verify s a = some t) : Inv verify codes t := by
  cases a with
  | load userId code rows =>
      simp only [step] at hstep
      split at hstep
      next hperm =>
        rw [← Option.some.inj hstep]
        exact h.check hperm
      next => cases hstep
  | markUsed number fate =>
      obtain ⟨m, hmatch, rfl⟩ := Option.map_eq_some_iff.mp hstep
      cases fate with
      | done => exact h.succeed (match?_spec hmatch) (hok m hmatch)
      | refused => exact h.fail m
      | lost => exact (h.mark m.row).fail m

/-- Where every match is marked first by the verification that succeeds with it, a code succeeds
at most as often as it matched an unused stored code. -/
theorem backup_code_succeeds_as_often_as_it_matches (verify : String → String → Bool)
    (codes : Codes) {s : State} {actions : List Action}
    (hmeets : Transition.Meets (step verify) MarkedFirst (init codes) actions)
    (hrun : Transition.run (step verify) (init codes) actions = some s) :
    SucceedsAsOften verify codes s.succeeded := by
  intro userId code
  have hinv : Inv verify codes s :=
    Transition.run_invariant (fun _ _ _ h hok hstep => inv_step h hok hstep) inv_init hmeets hrun
  have hcounted := hinv.counted userId code
  omega

/-! ## Two verifications with one code -/

/-- Two codes of a user, each of them its own hash. -/
def twoCodes : Codes := ⟨[⟨1, 7, "AAAA1111", 0⟩, ⟨2, 7, "BBBB2222", 0⟩], by decide⟩

/-- The code is used up before it is given again. -/
def oneAfterTheOther : List Action :=
  [.load 7 "AAAA1111" twoCodes.rows, .markUsed 0 .done, .load 7 "AAAA1111" [⟨2, 7, "BBBB2222", 0⟩],
    .load 7 "BBBB2222" [⟨2, 7, "BBBB2222", 0⟩], .markUsed 1 .done]

theorem backup_code_succeeds_as_often_as_it_matches_one_after_the_other :
    SucceedsAsOften (fun code hash => code == hash) twoCodes
      (Transition.final (step (fun code hash => code == hash)) (init twoCodes)
        oneAfterTheOther).succeeded :=
  backup_code_succeeds_as_often_as_it_matches (fun code hash => code == hash) twoCodes
    (show Transition.Meets (step (fun code hash => code == hash)) MarkedFirst (init twoCodes)
      oneAfterTheOther by decide +kernel)
    (Transition.run_eq_final (by decide +kernel))

/-- Both verifications load the code before either of them marks it. -/
def bothLoad : List Action :=
  [.load 7 "AAAA1111" twoCodes.rows, .load 7 "AAAA1111" twoCodes.rows, .markUsed 0 .done,
    .markUsed 1 .done]

theorem backup_code_succeeds_twice :
    ∃ s, Transition.run (step (fun code hash => code == hash)) (init twoCodes) bothLoad = some s ∧
      twoCodes.countWhere (matching (fun code hash => code == hash) 7 "AAAA1111") = 1 ∧
      s.succeeded.count (7, "AAAA1111") = 2 :=
  ⟨_, Transition.run_eq_final (by decide +kernel), by decide +kernel, by decide +kernel⟩

end Lightfriend.Auth.BackupCode
