import Lightfriend.Prune.Codec
import Lightfriend.Prune.History

/-! # The repair of dangling references

A repair takes the references to events without payload out of every stored
diff. The states at the end of the repaired chains are the states before,
without those events.
-/

namespace Lightfriend.Prune

/-- Does the entry name one of the dangling events? -/
def dangles (dangling : List Nat) (compressed : CompressedStateEvent) : Bool :=
  dangling.contains (shortEventId compressed)

/-! ## Chains of diffs -/

theorem filter_insert {α : Type} [BEq α] [LawfulBEq α] (p : α → Bool) (x : α) (xs : List α) :
    (xs.insert x).filter p = if p x then (xs.filter p).insert x else xs.filter p := by
  by_cases hx : x ∈ xs
  · rw [List.insert_of_mem hx]
    split
    next hp => rw [List.insert_of_mem (List.mem_filter.mpr ⟨hx, hp⟩)]
    next => rfl
  · rw [List.insert_of_not_mem hx, List.filter_cons]
    split
    next => rw [List.insert_of_not_mem (fun h => hx (List.mem_filter.mp h).1)]
    next => rfl

/-- Adding the entries that are kept to what is kept of a state. -/
theorem filter_foldl_insert {α : Type} [BEq α] [LawfulBEq α] (p : α → Bool) (added state : List α) :
    (added.foldl (fun state event => state.insert event) state).filter p =
      (added.filter p).foldl (fun state event => state.insert event) (state.filter p) := by
  induction added generalizing state with
  | nil => rfl
  | cons event rest ih =>
      rw [List.foldl_cons, ih, filter_insert, List.filter_cons]
      split <;> rfl

/-- One diff, from any state. -/
theorem filter_applyDiff (p : CompressedStateEvent → Bool) (diff : StateDiff)
    (state : List CompressedStateEvent) :
    ((diff.added.foldl (fun state event => state.insert event) state).filter
        (fun event => !diff.removed.contains event)).filter p =
      ((diff.added.filter p).foldl (fun state event => state.insert event) (state.filter p)).filter
        (fun event => !(diff.removed.filter p).contains event) := by
  rw [← filter_foldl_insert, List.filter_filter, List.filter_filter]
  apply List.filter_congr
  intro event _
  cases hp : p event with
  | true => simp [hp]
  | false => simp

/-- The state of the repaired diffs is that of the diffs, without the dangling entries: the
induction is on the chain, from any state that both have reached. -/
theorem applyStateDiffChain_retain (dangling : List Nat) (rootToCurrent : List StateDiff) :
    applyStateDiffChain (rootToCurrent.map (StateDiff.retain dangling)) =
      (applyStateDiffChain rootToCurrent).filter (fun event => !dangles dangling event) := by
  have hall : ∀ state : List CompressedStateEvent,
      (rootToCurrent.map (StateDiff.retain dangling)).foldl (fun state diff =>
          (diff.added.foldl (fun state event => state.insert event) state).filter (fun event =>
            !diff.removed.contains event)) (state.filter (fun event => !dangles dangling event)) =
        (rootToCurrent.foldl (fun state diff =>
          (diff.added.foldl (fun state event => state.insert event) state).filter (fun event =>
            !diff.removed.contains event)) state).filter
              (fun event => !dangles dangling event) := by
    induction rootToCurrent with
    | nil => exact fun _ => rfl
    | cons diff rest ih =>
        intro state
        rw [List.map_cons, List.foldl_cons, List.foldl_cons, ← ih, filter_applyDiff]
        rfl
  exact hall []

/-! ## One diff -/

section Retain

variable {dangling : List Nat} {diff : StateDiff}

@[simp] theorem retain_parent : (diff.retain dangling).parent = diff.parent := rfl

theorem references_retain :
    (diff.retain dangling).references =
      diff.references.filter (fun id => !dangling.contains id) := by
  unfold StateDiff.references StateDiff.retain
  rw [List.filter_map, List.filter_append]
  rfl

theorem not_dangling_of_retain {id : Nat} (h : id ∈ (diff.retain dangling).references) :
    id ∉ dangling := by
  rw [references_retain] at h
  simpa using (List.mem_filter.mp h).2

theorem retain_of_clean (h : ∀ id ∈ diff.references, id ∉ dangling) :
    diff.retain dangling = diff := by
  have hall : ∀ events : List CompressedStateEvent, (∀ e ∈ events, shortEventId e ∉ dangling) →
      events.filter (fun e => !dangling.contains (shortEventId e)) = events := by
    intro events hclean
    apply List.filter_eq_self.mpr
    intro e he
    simpa using hclean e he
  have hmem : ∀ e, e ∈ diff.added ∨ e ∈ diff.removed → shortEventId e ∉ dangling :=
    fun e he => h _ (List.mem_map_of_mem (List.mem_append.mpr he))
  unfold StateDiff.retain
  rw [hall diff.added (fun e he => hmem e (Or.inl he)),
    hall diff.removed (fun e he => hmem e (Or.inr he))]

/-- A diff is rewritten exactly when it names a dangling event. -/
theorem referencesRemoved_pos :
    0 < referencesRemoved dangling diff ↔ ∃ id ∈ diff.references, id ∈ dangling := by
  unfold referencesRemoved
  rw [references_retain, Nat.sub_pos_iff_lt, List.length_filter_lt_length_iff_exists]
  simp

theorem StateDiff.Valid.retain (h : diff.Valid) : (diff.retain dangling).Valid where
  parent := h.parent
  added := fun e he => h.added e (List.mem_filter.mp he).1
  removed := fun e he => h.removed e (List.mem_filter.mp he).1

end Retain

/-! ## The diffs of a database -/

section Diffs

variable {db : Database} {diffs : List (Nat × StateDiff)} {what : String}

theorem eightBytes_eq_ok {message : String} {bytes : Bytes} {n : Nat} :
    eightBytes message bytes = .ok n ↔ bytes.length = 8 ∧ fromBeBytes bytes = n := by
  unfold eightBytes
  split
  next h => simp [h]
  next h => simp [h, bail]

theorem readStateDiffs_keys (h : readStateDiffs what db = .ok diffs) :
    diffs.map (fun entry => toBeBytes entry.1) = (db .shortstatehashStatediff).rows.map Prod.fst := by
  refine map_of_mapM_eq_ok (fun row entry hread => ?_) h
  simp only [bind_eq_ok, eightBytes_eq_ok] at hread
  obtain ⟨hash, ⟨hlength, rfl⟩, diff, -, hentry⟩ := hread
  cases hentry
  exact toBeBytes_fromBeBytes hlength

/-- The stored diff behind a row. -/
theorem readStateDiffs_row (h : readStateDiffs what db = .ok diffs) {key value : Bytes}
    (hrow : (key, value) ∈ db .shortstatehashStatediff) {diff : StateDiff}
    (hparse : parseStateDiff value = .ok diff) :
    ∃ hash, (hash, diff) ∈ diffs ∧ toBeBytes hash = key := by
  obtain ⟨entry, hentry, hread⟩ := mem_of_mapM_eq_ok h hrow
  simp only [bind_eq_ok, eightBytes_eq_ok, withContext_eq_ok] at hread
  obtain ⟨hash, ⟨hlength, rfl⟩, parsed, hparsed, hread⟩ := hread
  rw [hparse] at hparsed
  cases hparsed
  cases hread
  exact ⟨_, hentry, toBeBytes_fromBeBytes hlength⟩

theorem readStateDiffs_mem (h : readStateDiffs what db = .ok diffs) {entry : Nat × StateDiff}
    (hentry : entry ∈ diffs) :
    ∃ value, (toBeBytes entry.1, value) ∈ db .shortstatehashStatediff ∧
      parseStateDiff value = .ok entry.2 := by
  obtain ⟨row, hrow, hread⟩ := exists_of_mapM_eq_ok h hentry
  simp only [bind_eq_ok, eightBytes_eq_ok, withContext_eq_ok] at hread
  obtain ⟨hash, ⟨hlength, rfl⟩, parsed, hparsed, hread⟩ := hread
  cases hread
  rw [toBeBytes_fromBeBytes hlength]
  exact ⟨row.2, hrow, hparsed⟩

theorem readStateDiffs_unique (h : readStateDiffs what db = .ok diffs) {a b : Nat × StateDiff}
    (ha : a ∈ diffs) (hb : b ∈ diffs) (hkey : toBeBytes a.1 = toBeBytes b.1) : a = b := by
  have hnodup : (diffs.map (fun entry => toBeBytes entry.1)).Nodup := by
    rw [readStateDiffs_keys h]
    exact (db .shortstatehashStatediff).unique
  exact List.inj_on_of_nodup_map hnodup ha hb hkey

end Diffs

/-! ## The repaired database -/

/-- The referenced events without payload. -/
def IsDangling (db : Database) (stateEvents : StateEvents) (dangling : List Nat) : Prop :=
  ∀ shortId, shortId ∈ dangling ↔
    (∃ row ∈ db .shortstatehashStatediff, ∃ diff, parseStateDiff row.2 = .ok diff ∧
      shortId ∈ diff.references) ∧
    ∃ eventId, resolveShortEventId db shortId = .ok eventId ∧ ¬ stateEvents.HasKey eventId

/-- A database whose state diffs have lost their references to dangling events. -/
structure Repaired (dangling : List Nat) (db repaired : Database) : Prop where
  columns : ∀ cf, cf ≠ .shortstatehashStatediff → repaired cf = db cf
  keys : ∀ row ∈ repaired .shortstatehashStatediff, ∃ value,
    (row.1, value) ∈ db .shortstatehashStatediff
  diffs : ∀ row ∈ db .shortstatehashStatediff, ∀ diff, parseStateDiff row.2 = .ok diff →
    ∃ value, (row.1, value) ∈ repaired .shortstatehashStatediff ∧
      parseStateDiff value = .ok (diff.retain dangling)
  untouched : ∀ row ∈ db .shortstatehashStatediff, ∀ diff, parseStateDiff row.2 = .ok diff →
    (∀ id ∈ diff.references, id ∉ dangling) → row ∈ repaired .shortstatehashStatediff

section Write

variable {db : Database} {diffs : List (Nat × StateDiff)} {what : String} {dangling : List Nat}

theorem mem_repairBatch {op : BatchOp} :
    op ∈ repairBatch dangling diffs ↔ ∃ entry ∈ diffs, 0 < referencesRemoved dangling entry.2 ∧
      op = .put .shortstatehashStatediff (toBeBytes entry.1)
        (serializeStateDiff (entry.2.retain dangling)) := by
  unfold repairBatch
  rw [List.mem_map]
  constructor
  · rintro ⟨entry, hentry, rfl⟩
    obtain ⟨hmem, hpos⟩ := List.mem_filter.mp hentry
    exact ⟨entry, hmem, of_decide_eq_true hpos, rfl⟩
  · rintro ⟨entry, hmem, hpos, rfl⟩
    exact ⟨entry, List.mem_filter.mpr ⟨hmem, decide_eq_true hpos⟩, rfl⟩

theorem mem_write_repairBatch (h : readStateDiffs what db = .ok diffs) {row : Bytes × Bytes} :
    row ∈ db.write (repairBatch dangling diffs) .shortstatehashStatediff ↔
      BatchOp.put .shortstatehashStatediff row.1 row.2 ∈ repairBatch dangling diffs ∨
        row ∈ db .shortstatehashStatediff ∧
          row.1 ∉ (repairBatch dangling diffs).map BatchOp.key := by
  refine Database.mem_write_puts (fun op hop => ?_) ?_
  · obtain ⟨entry, -, -, rfl⟩ := mem_repairBatch.1 hop
    exact ⟨_, _, rfl⟩
  · have hkeys : (repairBatch dangling diffs).map BatchOp.key =
        (diffs.filter (fun entry => 0 < referencesRemoved dangling entry.2)).map
          (fun entry => toBeBytes entry.1) := by
      rw [repairBatch, List.map_map]
      rfl
    rw [hkeys]
    refine List.Nodup.sublist (List.filter_sublist.map _) ?_
    rw [readStateDiffs_keys h]
    exact (db .shortstatehashStatediff).unique

/-- The row of a diff that is not rewritten. -/
theorem mem_write_of_clean (h : readStateDiffs what db = .ok diffs) {row : Bytes × Bytes}
    (hrow : row ∈ db .shortstatehashStatediff) {diff : StateDiff}
    (hparse : parseStateDiff row.2 = .ok diff) (hclean : ∀ id ∈ diff.references, id ∉ dangling) :
    row ∈ db.write (repairBatch dangling diffs) .shortstatehashStatediff := by
  refine (mem_write_repairBatch h).mpr (Or.inr ⟨hrow, fun hkey => ?_⟩)
  obtain ⟨op, hop, hopkey⟩ := List.mem_map.mp hkey
  obtain ⟨entry, hentry, hpos, rfl⟩ := mem_repairBatch.1 hop
  obtain ⟨hash, hmem, hhash⟩ := readStateDiffs_row h hrow hparse
  have hsame : entry = (hash, diff) := readStateDiffs_unique h hentry hmem (hopkey.trans hhash.symm)
  rw [hsame] at hpos
  obtain ⟨id, hid, hdangling⟩ := referencesRemoved_pos.1 hpos
  exact hclean id hid hdangling

/-- The batch repairs every diff that was read. -/
theorem repaired_write (h : readStateDiffs what db = .ok diffs) :
    Repaired dangling db (db.write (repairBatch dangling diffs)) where
  columns := by
    intro cf hcf
    refine Database.write_of_column (fun op hop => ?_)
    obtain ⟨entry, -, -, rfl⟩ := mem_repairBatch.1 hop
    exact Ne.symm hcf
  keys := by
    intro row hrow
    rcases (mem_write_repairBatch h).mp hrow with hput | ⟨hold, -⟩
    · obtain ⟨entry, hentry, -, heq⟩ := mem_repairBatch.1 hput
      obtain ⟨value, hvalue, -⟩ := readStateDiffs_mem h hentry
      injection heq with _ hkey
      exact ⟨value, hkey ▸ hvalue⟩
    · exact ⟨row.2, hold⟩
  diffs := by
    intro row hrow diff hparse
    by_cases hclean : ∀ id ∈ diff.references, id ∉ dangling
    · rw [retain_of_clean hclean]
      exact ⟨row.2, mem_write_of_clean h hrow hparse hclean, hparse⟩
    · have hpos : 0 < referencesRemoved dangling diff := by
        apply referencesRemoved_pos.2
        push Not at hclean
        exact hclean
      obtain ⟨hash, hmem, hhash⟩ := readStateDiffs_row h hrow hparse
      refine ⟨serializeStateDiff (diff.retain dangling), (mem_write_repairBatch h).mpr (Or.inl ?_),
        (parseStateDiff_spec hparse).1.retain.parse_serialize⟩
      exact mem_repairBatch.2 ⟨(hash, diff), hmem, hpos, by rw [hhash]⟩
  untouched := fun _ hrow _ hparse hclean => mem_write_of_clean h hrow hparse hclean

theorem danglingShortIds_spec {stateEvents : StateEvents} {shortEventIds : List Nat}
    (h : danglingShortIds db stateEvents shortEventIds = .ok dangling) (shortId : Nat) :
    shortId ∈ dangling ↔ shortId ∈ shortEventIds ∧
      ∃ eventId, resolveShortEventId db shortId = .ok eventId ∧ ¬ stateEvents.HasKey eventId := by
  unfold danglingShortIds at h
  rw [bind_eq_ok] at h
  obtain ⟨resolved, hresolved, h⟩ := h
  cases h
  rw [List.mem_map]
  constructor
  · rintro ⟨entry, hentry, rfl⟩
    obtain ⟨hmem, hmissing⟩ := List.mem_filter.mp hentry
    obtain ⟨id, hid, hread⟩ := exists_of_mapM_eq_ok hresolved hmem
    rw [bind_eq_ok] at hread
    obtain ⟨eventId, hevent, hread⟩ := hread
    cases hread
    exact ⟨hid, eventId, hevent, by simpa using hmissing⟩
  · rintro ⟨hid, eventId, hevent, hmissing⟩
    obtain ⟨entry, hentry, hread⟩ := mem_of_mapM_eq_ok hresolved hid
    rw [hevent] at hread
    cases hread
    exact ⟨(shortId, eventId), List.mem_filter.mpr ⟨hentry, by simpa using hmissing⟩, rfl⟩

end Write

/-- A repair that succeeds has repaired the references that dangle. -/
theorem repairDanglingStateReferences_spec {db repaired : Database} {stateEvents : StateEvents}
    {hashes : List Nat} {repair : StateReferenceRepair}
    (h : repairDanglingStateReferences db stateEvents hashes = .ok (repaired, repair)) :
    ∃ dangling, IsDangling db stateEvents dangling ∧ Repaired dangling db repaired := by
  unfold repairDanglingStateReferences at h
  simp only [bind_eq_ok] at h
  obtain ⟨diffs, hdiffs, dangling, hdangling, h⟩ := h
  refine ⟨dangling, fun shortId => ?_, ?_⟩
  · rw [danglingShortIds_spec hdangling shortId, List.mem_dedup, List.mem_flatMap]
    refine and_congr_left fun _ => ?_
    constructor
    · rintro ⟨entry, hentry, hid⟩
      obtain ⟨value, hvalue, hparse⟩ := readStateDiffs_mem hdiffs hentry
      exact ⟨_, hvalue, entry.2, hparse, hid⟩
    · rintro ⟨row, hrow, diff, hparse, hid⟩
      obtain ⟨hash, hmem, -⟩ := readStateDiffs_row hdiffs hrow hparse
      exact ⟨(hash, diff), hmem, hid⟩
  · split at h
    next hempty =>
      cases h
      have hnone : dangling = [] := List.isEmpty_iff.mp hempty
      have hbatch : repairBatch dangling diffs = [] := by
        refine List.eq_nil_iff_forall_not_mem.mpr (fun op hop => ?_)
        obtain ⟨entry, -, hpos, -⟩ := mem_repairBatch.1 hop
        obtain ⟨id, -, hid⟩ := referencesRemoved_pos.1 hpos
        rw [hnone] at hid
        cases hid
      have hwritten := @repaired_write db diffs _ dangling hdiffs
      rwa [hbatch] at hwritten
    next =>
      rw [bind_eq_ok] at h
      obtain ⟨_, -, h⟩ := h
      cases h
      exact repaired_write hdiffs

/-! ## The states of a repaired database -/

/-- The state that a hash stands for. -/
def stateAt (db : Database) (hash : Nat) : Result (List CompressedStateEvent) := do
  let chain ← stateChain (loadStateDiff db) "cycle detected in state-diff ancestry"
    (chainFuel db) [] (some hash)
  .ok (applyStateDiffChain chain.reverse)

theorem stateChain_map {lookup lookup' : Nat → Result StateDiff} {cycle : String}
    {f : StateDiff → StateDiff} (hparent : ∀ diff, (f diff).parent = diff.parent)
    (hlookup : ∀ hash diff, lookup hash = .ok diff → lookup' hash = .ok (f diff))
    {fuel : Nat} {visited : List Nat} {cursor : Option Nat} {chain : List StateDiff}
    (h : stateChain lookup cycle fuel visited cursor = .ok chain) :
    stateChain lookup' cycle fuel visited cursor = .ok (chain.map f) := by
  induction fuel generalizing visited cursor chain with
  | zero =>
      cases cursor with
      | none =>
          cases h
          rfl
      | some hash => cases h
  | succ fuel ih =>
      cases cursor with
      | none =>
          cases h
          rfl
      | some hash =>
          unfold stateChain at h ⊢
          split at h
          · cases h
          next hnew =>
            simp only [bind_eq_ok] at h
            obtain ⟨diff, hdiff, ancestors, hancestors, h⟩ := h
            cases h
            rw [if_neg hnew]
            have hrest := ih hancestors
            rw [← hparent diff] at hrest
            simp only [hlookup hash diff hdiff, hrest, bind, Except.bind, List.map_cons]

section States

variable {dangling : List Nat} {db repaired : Database}

theorem Repaired.loadStateDiff (h : Repaired dangling db repaired) {hash : Nat} {diff : StateDiff}
    (hload : loadStateDiff db hash = .ok diff) :
    loadStateDiff repaired hash = .ok (diff.retain dangling) := by
  unfold Prune.loadStateDiff at hload ⊢
  simp only [bind_eq_ok, orContext_eq_ok, withContext_eq_ok] at hload ⊢
  obtain ⟨value, hvalue, hparse⟩ := hload
  obtain ⟨value', hvalue', hparse'⟩ :=
    h.diffs _ (Database.getCf_eq_some_iff.mp hvalue) diff hparse
  exact ⟨value', Database.getCf_eq_some_iff.mpr hvalue', hparse'⟩

/-- A database in which every stored diff can be read keeps its keys. -/
theorem Repaired.chainFuel (h : Repaired dangling db repaired)
    (hparse : ∀ row ∈ db .shortstatehashStatediff, ∃ diff, parseStateDiff row.2 = .ok diff) :
    chainFuel repaired = chainFuel db := by
  have hperm : ((repaired .shortstatehashStatediff).rows.map Prod.fst).Perm
      ((db .shortstatehashStatediff).rows.map Prod.fst) := by
    rw [List.perm_ext_iff_of_nodup (repaired _).unique (db _).unique]
    intro key
    constructor
    · intro hkey
      obtain ⟨row, hrow, rfl⟩ := List.mem_map.mp hkey
      obtain ⟨value, hvalue⟩ := h.keys row hrow
      exact List.mem_map.mpr ⟨_, hvalue, rfl⟩
    · intro hkey
      obtain ⟨row, hrow, rfl⟩ := List.mem_map.mp hkey
      obtain ⟨diff, hdiff⟩ := hparse row hrow
      obtain ⟨value, hvalue, -⟩ := h.diffs row hrow diff hdiff
      exact List.mem_map.mpr ⟨_, hvalue, rfl⟩
  have hlength := hperm.length_eq
  rw [List.length_map, List.length_map] at hlength
  rw [Prune.chainFuel, Prune.chainFuel, hlength]

/-- Every state of the repaired database is the state before, without its dangling entries. -/
theorem Repaired.stateAt (h : Repaired dangling db repaired)
    (hparse : ∀ row ∈ db .shortstatehashStatediff, ∃ diff, parseStateDiff row.2 = .ok diff)
    {hash : Nat} {state : List CompressedStateEvent} (hstate : stateAt db hash = .ok state) :
    stateAt repaired hash = .ok (state.filter (fun event => !dangles dangling event)) := by
  unfold Prune.stateAt at hstate ⊢
  rw [bind_eq_ok] at hstate
  obtain ⟨chain, hchain, hstate⟩ := hstate
  cases hstate
  rw [h.chainFuel hparse, bind_eq_ok]
  refine ⟨chain.map (StateDiff.retain dangling), ?_, ?_⟩
  · exact stateChain_map (f := StateDiff.retain dangling) (fun _ => rfl)
      (fun _ _ hload => h.loadStateDiff hload) hchain
  · rw [← List.map_reverse, applyStateDiffChain_retain]

end States

/-! ## The repair with its write -/

/-- How the write of the batch and the flush behind it end. -/
inductive WriteFate
  | done
  | refused
  | unflushed
deriving DecidableEq, Repr

/-- The database after `repair_dangling_state_references`, and its result. Without a dangling
reference nothing is written. -/
def runRepair (fate : WriteFate) (db : Database) (stateEvents : StateEvents)
    (currentStateHashes : List Nat) : Database × Result StateReferenceRepair :=
  match repairDanglingStateReferences db stateEvents currentStateHashes with
  | .error chain => (db, .error chain)
  | .ok (repaired, repair) =>
      if repair.danglingStateEventsRepaired = 0 then (db, .ok repair)
      else
        match fate with
        | .done => (repaired, .ok repair)
        | .refused => (db, bail "failed to atomically repair dangling state references")
        | .unflushed => (repaired, bail "failed to flush dangling state-reference repair")

theorem repaired_of_none {db repaired : Database} {stateEvents : StateEvents} {hashes : List Nat}
    {repair : StateReferenceRepair}
    (h : repairDanglingStateReferences db stateEvents hashes = .ok (repaired, repair))
    (hnone : repair.danglingStateEventsRepaired = 0) : repaired = db := by
  unfold repairDanglingStateReferences at h
  simp only [bind_eq_ok] at h
  obtain ⟨diffs, _, dangling, _, h⟩ := h
  split at h
  · cases h
    rfl
  next hsome =>
    rw [bind_eq_ok] at h
    obtain ⟨_, _, h⟩ := h
    cases h
    exact absurd (List.isEmpty_iff.mpr (List.length_eq_zero_iff.mp hnone)) hsome

/-- The references that dangle are repaired, at the database and at each of its states. -/
def RepairedFrom (stateEvents : StateEvents) (db repaired : Database) : Prop :=
  ∃ dangling, IsDangling db stateEvents dangling ∧ Repaired dangling db repaired ∧
    ∀ hash state, stateAt db hash = .ok state →
      stateAt repaired hash = .ok (state.filter (fun event => !dangles dangling event))

theorem repairedFrom_of_ok {db repaired : Database} {stateEvents : StateEvents}
    {hashes : List Nat} {repair : StateReferenceRepair}
    (h : repairDanglingStateReferences db stateEvents hashes = .ok (repaired, repair)) :
    RepairedFrom stateEvents db repaired := by
  obtain ⟨dangling, hdangling, hrepaired⟩ := repairDanglingStateReferences_spec h
  refine ⟨dangling, hdangling, hrepaired, fun hash state => hrepaired.stateAt ?_⟩
  intro row hrow
  unfold repairDanglingStateReferences at h
  rw [bind_eq_ok] at h
  obtain ⟨diffs, hdiffs, -⟩ := h
  obtain ⟨entry, -, hread⟩ := mem_of_mapM_eq_ok hdiffs hrow
  simp only [bind_eq_ok, withContext_eq_ok] at hread
  obtain ⟨_, -, diff, hdiff, -⟩ := hread
  exact ⟨diff, hdiff⟩

/-- What the repair of dangling references does to diffs, chains of diffs and the database. -/
structure RepairLaw : Prop where
  chain : ∀ dangling rootToCurrent,
    applyStateDiffChain (rootToCurrent.map (StateDiff.retain dangling)) =
      (applyStateDiffChain rootToCurrent).filter (fun event => !dangles dangling event)
  clean : ∀ dangling (diff : StateDiff), ∀ id ∈ (diff.retain dangling).references, id ∉ dangling
  parent : ∀ dangling (diff : StateDiff), (diff.retain dangling).parent = diff.parent
  untouched : ∀ dangling (diff : StateDiff), (∀ id ∈ diff.references, id ∉ dangling) →
    diff.retain dangling = diff
  completed : ∀ fate db stateEvents hashes repair,
    (runRepair fate db stateEvents hashes).2 = .ok repair →
      RepairedFrom stateEvents db (runRepair fate db stateEvents hashes).1
  failed : ∀ fate db stateEvents hashes error,
    (runRepair fate db stateEvents hashes).2 = .error error →
      (runRepair fate db stateEvents hashes).1 = db ∨
        fate = .unflushed ∧ RepairedFrom stateEvents db (runRepair fate db stateEvents hashes).1

theorem dangling_repair_commutes : RepairLaw where
  chain := applyStateDiffChain_retain
  clean := fun _ _ _ => not_dangling_of_retain
  parent := fun _ _ => rfl
  untouched := fun _ _ => retain_of_clean
  completed := by
    intro fate db stateEvents hashes repair h
    unfold runRepair at h ⊢
    split at h
    · cases h
    next repaired found hok =>
      have hrepaired := repairedFrom_of_ok hok
      split
      next hnone => rwa [repaired_of_none hok hnone] at hrepaired
      next hsome =>
        rw [if_neg hsome] at h
        cases fate with
        | done => exact hrepaired
        | refused => cases h
        | unflushed => cases h
  failed := by
    intro fate db stateEvents hashes error h
    unfold runRepair at h ⊢
    split at h
    next => exact Or.inl rfl
    next repaired found hok =>
      split
      next => exact Or.inl rfl
      next =>
        cases fate with
        | done => exact absurd h (by simp [*])
        | refused => exact Or.inl rfl
        | unflushed => exact Or.inr ⟨rfl, repairedFrom_of_ok hok⟩

/-! ## A flush that fails -/

namespace RepairExample

/-- One state with one entry, whose event `$a` has no payload. -/
def database : Database
  | .shortstatehashStatediff =>
      ⟨[(toBeBytes 7, toBeBytes 0 ++ toBeBytes 1 ++ toBeBytes 9)], List.nodup_singleton _⟩
  | .shorteventidEventid =>
      ⟨[(toBeBytes 9, [UInt8.ofNat 36, UInt8.ofNat 97])], List.nodup_singleton _⟩
  | _ => Table.empty

end RepairExample

open RepairExample in
/-- The error of the flush comes after the repair has been written. -/
theorem unflushed_repair_is_written :
    ¬ ∀ fate db stateEvents hashes error,
      (runRepair fate db stateEvents hashes).2 = .error error →
        (runRepair fate db stateEvents hashes).1 = db := by
  intro h
  have hfailed : (runRepair .unflushed database Table.empty []).2 =
      .error ["failed to flush dangling state-reference repair"] := by decide
  have hread := congrArg (fun db : Database => db.getCf .shortstatehashStatediff (toBeBytes 7))
    (h _ _ _ _ _ hfailed)
  revert hread
  decide

end Lightfriend.Prune
