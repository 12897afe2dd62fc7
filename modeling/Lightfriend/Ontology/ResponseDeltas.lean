import Lightfriend.Core.Machine
import Lightfriend.Core.Sort
import Mathlib.Algebra.BigOperators.Group.Finset.Basic
import Mathlib.Algebra.Order.Group.Multiset
import Mathlib.Data.List.DropRight

/-! # Response times

The messages of a room are read in order of time. A message of somebody else opens
a cycle, and the next reply of the user closes it with the time since then.
Messages of one second stand as the caller gave them.
-/

namespace Lightfriend.Ontology.ResponseDeltas

/-! ## The scan -/

structure OntMessage where
  roomId : String
  senderName : String
  /-- A word of 32 bits. -/
  createdAt : Int
  inRange : i32Min ≤ createdAt ∧ createdAt ≤ i32Max
deriving DecidableEq

def isReply (m : OntMessage) : Bool := m.senderName = "You"

/-- The message of somebody else opens a cycle. -/
def counts (senderFilter : Option String) (m : OntMessage) : Bool :=
  !isReply m && senderFilter.all (fun name => m.senderName = name)

/-- The subtraction wraps around in a release build. -/
def delta (createdAt triggerTs : Int) : Option Int :=
  let d := Int.bmod (createdAt - triggerTs) 4294967296
  if 0 < d ∧ d ≤ 86400 then some d else none

section

variable (senderFilter : Option String)

/-- The loop over the messages of a room, with the pending trigger. -/
def scan : Option Int → List OntMessage → List Int
  | _, [] => []
  | pending, m :: rest =>
      if isReply m then
        match pending with
        | some triggerTs => (delta m.createdAt triggerTs).toList ++ scan none rest
        | none => scan none rest
      else if counts senderFilter m && pending.isNone then scan (some m.createdAt) rest
      else scan pending rest

def chronological (messages : List OntMessage) : List OntMessage :=
  orderBy (fun a b => a.createdAt ≤ b.createdAt) messages

def roomDeltas (messages : List OntMessage) (room : String) : List Int :=
  scan senderFilter none (chronological (messages.filter (fun m => m.roomId = room)))

/-- The rooms are the values of a hash map, so the deltas come in no order. -/
def computeResponseDeltas (messages : List OntMessage) : Multiset Int :=
  ∑ room ∈ (messages.map (·.roomId)).toFinset,
    (roomDeltas senderFilter messages room : Multiset Int)

/-! ## The meaning -/

/-- What stands behind the last reply. -/
def sinceReply (before : List OntMessage) : List OntMessage :=
  before.rtakeWhile (fun m => !isReply m)

/-- The time that a reply took, for what the room showed before it: since the first message that
counts behind the reply before. -/
def cycle (before : List OntMessage) (reply : OntMessage) : Option Int :=
  ((sinceReply before).find? (counts senderFilter)).bind (fun m =>
    if 0 < reply.createdAt - m.createdAt ∧ reply.createdAt - m.createdAt ≤ 86400 then
      some (reply.createdAt - m.createdAt)
    else none)

/-- What the replies of a room close, each at most one cycle. -/
def cycles : List OntMessage → List OntMessage → List Int
  | _, [] => []
  | before, m :: rest =>
      (if isReply m then (cycle senderFilter before m).toList else []) ++
        cycles (before ++ [m]) rest

/-- No order of the messages changes the deltas, each of them is positive and at most a day, and
they are the cycles that the replies close. -/
def OrderFree (messages : List OntMessage) : Prop :=
  (∀ messages' : List OntMessage, messages'.Perm messages →
    computeResponseDeltas senderFilter messages' = computeResponseDeltas senderFilter messages) ∧
  (∀ d ∈ computeResponseDeltas senderFilter messages, 0 < d ∧ d ≤ 86400) ∧
  computeResponseDeltas senderFilter messages =
    ∑ room ∈ (messages.map (·.roomId)).toFinset,
      (cycles senderFilter [] (chronological (messages.filter (fun m => m.roomId = room))) :
        Multiset Int)

/-- The message counts in the room, after one time and before another. -/
def CountsBetween (messages : List OntMessage) (room : String) (start stop : Int)
    (m : OntMessage) : Prop :=
  m ∈ messages ∧ m.roomId = room ∧ counts senderFilter m = true ∧ start < m.createdAt ∧
    m.createdAt < stop

/-- A reply and a message that counts have one time in a room, and this is the next reply. -/
structure Tie (messages : List OntMessage) (reply trigger next : OntMessage) : Prop where
  mem : reply ∈ messages ∧ trigger ∈ messages ∧ next ∈ messages
  room : trigger.roomId = reply.roomId ∧ next.roomId = reply.roomId
  replies : isReply reply = true ∧ isReply next = true
  counted : counts senderFilter trigger = true
  tied : trigger.createdAt = reply.createdAt
  later : reply.createdAt < next.createdAt
  first : ∀ m ∈ messages, m.roomId = reply.roomId → isReply m = true →
    reply.createdAt < m.createdAt → next.createdAt ≤ m.createdAt

/-- The next reply after a tie comes more than a day later, and more than a day after the first
message that counts between them. -/
def TiesApart (messages : List OntMessage) : Prop :=
  ∀ reply trigger next, Tie senderFilter messages reply trigger next →
    86400 < next.createdAt - reply.createdAt ∧
    ∀ m, CountsBetween senderFilter messages reply.roomId reply.createdAt next.createdAt m →
      (∀ m', CountsBetween senderFilter messages reply.roomId reply.createdAt next.createdAt m' →
        m.createdAt ≤ m'.createdAt) →
      86400 < next.createdAt - m.createdAt

end

/-! ## What is pending -/

section

variable (senderFilter : Option String)

/-- The pending trigger behind the messages. -/
def pendingAfter : Option Int → List OntMessage → Option Int
  | pending, [] => pending
  | pending, m :: rest =>
      if isReply m then pendingAfter none rest
      else if counts senderFilter m && pending.isNone then pendingAfter (some m.createdAt) rest
      else pendingAfter pending rest

/-- The time of the first message that counts. -/
def firstCounted (messages : List OntMessage) : Option Int :=
  (messages.find? (counts senderFilter)).map (·.createdAt)

end

section

variable {senderFilter : Option String} {l rest : List OntMessage} {m : OntMessage}
variable {pending : Option Int} {t : Int}

theorem not_isReply_of_counts (h : counts senderFilter m = true) : isReply m = false := by
  unfold counts at h
  rw [Bool.and_eq_true, Bool.not_eq_true'] at h
  exact h.1

theorem delta_self : delta t t = none := by
  simp [delta]

/-- Within a word, the wrapped difference is in the range exactly where the true one is. -/
theorem delta_eq {createdAt triggerTs : Int} (hcreated : i32Min ≤ createdAt ∧ createdAt ≤ i32Max)
    (htrigger : i32Min ≤ triggerTs ∧ triggerTs ≤ i32Max) (hle : triggerTs ≤ createdAt) :
    delta createdAt triggerTs =
      if 0 < createdAt - triggerTs ∧ createdAt - triggerTs ≤ 86400 then
        some (createdAt - triggerTs)
      else none := by
  unfold i32Min i32Max at hcreated htrigger
  unfold delta
  dsimp only
  rw [Int.bmod_def]
  by_cases hday : 0 < createdAt - triggerTs ∧ createdAt - triggerTs ≤ 86400
  · have hmod : (createdAt - triggerTs) % (4294967296 : Nat) = createdAt - triggerTs := by omega
    have hsmall : createdAt - triggerTs < ((4294967296 : Nat) + 1) / 2 := by omega
    rw [hmod, if_pos hsmall]
  · rw [if_neg hday]
    split
    · rw [if_neg (by omega)]
    · rw [if_neg (by omega)]

theorem scan_reply (h : isReply m = true) :
    scan senderFilter pending (m :: rest) =
      (pending.bind (delta m.createdAt)).toList ++ scan senderFilter none rest := by
  cases pending with
  | none => simp only [scan, h, if_true, Option.bind_none, Option.toList_none, List.nil_append]
  | some triggerTs => simp only [scan, h, if_true, Option.bind_some]

theorem scan_other (h : isReply m = false) :
    scan senderFilter pending (m :: rest) =
      scan senderFilter (pendingAfter senderFilter pending [m]) rest := by
  simp only [scan, pendingAfter, h, Bool.false_eq_true, if_false]
  split
  · rfl
  · rfl

theorem pendingAfter_append (a b : List OntMessage) :
    pendingAfter senderFilter pending (a ++ b) =
      pendingAfter senderFilter (pendingAfter senderFilter pending a) b := by
  induction a generalizing pending with
  | nil => rfl
  | cons m rest ih =>
      rw [List.cons_append, pendingAfter, pendingAfter]
      split
      · exact ih
      · split
        · exact ih
        · exact ih

theorem scan_append (a b : List OntMessage) :
    scan senderFilter pending (a ++ b) = scan senderFilter pending a ++
      scan senderFilter (pendingAfter senderFilter pending a) b := by
  induction a generalizing pending with
  | nil => rfl
  | cons m rest ih =>
      cases h : isReply m with
      | true =>
          rw [List.cons_append, scan_reply h, scan_reply h, ih, pendingAfter, if_pos h,
            List.append_assoc]
      | false =>
          rw [List.cons_append, scan_other h, scan_other h, ih, ← pendingAfter_append,
            List.singleton_append]

theorem pendingAfter_noReply (h : ∀ m ∈ l, isReply m = false) :
    pendingAfter senderFilter pending l = pending.or (firstCounted senderFilter l) := by
  induction l generalizing pending with
  | nil => cases pending <;> rfl
  | cons m rest ih =>
      rw [List.forall_mem_cons] at h
      rw [pendingAfter, if_neg (by simp [h.1])]
      unfold firstCounted at ih ⊢
      cases pending with
      | none =>
          cases hcounts : counts senderFilter m with
          | true => simp [ih h.2, hcounts]
          | false => simp [ih h.2, hcounts]
      | some triggerTs => simp [ih h.2]

theorem scan_noReply (h : ∀ m ∈ l, isReply m = false) : scan senderFilter pending l = [] := by
  induction l generalizing pending with
  | nil => rfl
  | cons m rest ih =>
      rw [List.forall_mem_cons] at h
      rw [scan_other h.1, ih h.2]

/-- Nothing is pending right behind replies. -/
theorem pendingAfter_replies (hne : l ≠ []) (h : ∀ m ∈ l, isReply m = true) :
    pendingAfter senderFilter pending l = none := by
  induction l generalizing pending with
  | nil => exact absurd rfl hne
  | cons m rest ih =>
      rw [List.forall_mem_cons] at h
      rw [pendingAfter, if_pos h.1]
      cases rest with
      | nil => rfl
      | cons next rest => exact ih (List.cons_ne_nil _ _) h.2

/-- Behind a reply nothing is pending, or a message of its time that counts. -/
theorem pendingAfter_group (htime : ∀ m ∈ l, m.createdAt = t) (hreply : ∃ m ∈ l, isReply m = true) :
    pendingAfter senderFilter pending l = none ∨
      pendingAfter senderFilter pending l = some t ∧ ∃ m ∈ l, counts senderFilter m = true := by
  induction l generalizing pending with
  | nil =>
      obtain ⟨m, hmem, -⟩ := hreply
      cases hmem
  | cons m rest ih =>
      rw [List.forall_mem_cons] at htime
      have hmore : ∀ p, (∃ m ∈ rest, isReply m = true) →
          pendingAfter senderFilter p rest = none ∨
            pendingAfter senderFilter p rest = some t ∧
              ∃ m' ∈ m :: rest, counts senderFilter m' = true := by
        intro p hlater
        rcases @ih p htime.2 hlater with hnone | ⟨hsome, m', hmem, hcounts⟩
        · exact .inl hnone
        · exact .inr ⟨hsome, m', List.mem_cons_of_mem _ hmem, hcounts⟩
      by_cases hlater : ∃ m ∈ rest, isReply m = true
      · rw [pendingAfter]
        split
        · exact hmore _ hlater
        · split
          · exact hmore _ hlater
          · exact hmore _ hlater
      · have hrest : ∀ m' ∈ rest, isReply m' = false := by
          intro m' hmem
          by_contra hne
          exact hlater ⟨m', hmem, by simpa using hne⟩
        have hm : isReply m = true := by
          obtain ⟨m', hmem, hm'⟩ := hreply
          rcases List.mem_cons.mp hmem with rfl | hmem
          · exact hm'
          · exact absurd ⟨m', hmem, hm'⟩ hlater
        rw [pendingAfter, if_pos hm, pendingAfter_noReply hrest, Option.none_or]
        unfold firstCounted
        cases hfind : rest.find? (counts senderFilter) with
        | none => exact .inl rfl
        | some m' =>
            have hmem := List.mem_of_find?_eq_some hfind
            exact .inr ⟨congrArg some (htime.2 m' hmem), m', List.mem_cons_of_mem _ hmem,
              List.find?_some hfind⟩

/-- The messages of one time close at most what was pending before. -/
theorem scan_group (htime : ∀ m ∈ l, m.createdAt = t) :
    scan senderFilter pending l =
      if ∃ m ∈ l, isReply m = true then (pending.bind (delta t)).toList else [] := by
  have hquiet : ∀ rest : List OntMessage, (∀ m ∈ rest, m.createdAt = t) →
      ∀ p, p = none ∨ p = some t → scan senderFilter p rest = [] := by
    intro rest hrest
    induction rest with
    | nil => exact fun _ _ => rfl
    | cons m rest ih =>
        rw [List.forall_mem_cons] at hrest
        intro p hp
        cases hm : isReply m with
        | true =>
            rw [scan_reply hm, ih hrest.2 none (.inl rfl), List.append_nil, hrest.1]
            rcases hp with rfl | rfl
            · rfl
            · rw [Option.bind_some, delta_self]
              rfl
        | false =>
            rw [scan_other hm, pendingAfter_noReply (by simpa using hm)]
            refine ih hrest.2 _ ?_
            rcases hp with rfl | rfl
            · unfold firstCounted
              cases hcounts : counts senderFilter m with
              | true => simp [hcounts, hrest.1]
              | false => simp [hcounts]
            · exact .inr rfl
  induction l generalizing pending with
  | nil => simp [scan]
  | cons m rest ih =>
      rw [List.forall_mem_cons] at htime
      cases hm : isReply m with
      | true =>
          rw [scan_reply hm, hquiet rest htime.2 none (.inl rfl), List.append_nil, htime.1,
            if_pos ⟨m, List.mem_cons_self, hm⟩]
      | false =>
          have hsame : (∃ m' ∈ m :: rest, isReply m' = true) ↔ ∃ m' ∈ rest, isReply m' = true := by
            simp [hm]
          rw [scan_other hm, pendingAfter_noReply (by simpa using hm), ih htime.2]
          simp only [hsame]
          cases pending with
          | some triggerTs => rfl
          | none =>
              unfold firstCounted
              cases hcounts : counts senderFilter m with
              | true => simp [hcounts, htime.1, delta_self]
              | false => simp [hcounts]

/-! ## The cycles of the replies -/

theorem sinceReply_concat_reply (before : List OntMessage) (h : isReply m = true) :
    sinceReply (before ++ [m]) = [] := by
  unfold sinceReply
  exact List.rtakeWhile_concat_neg _ _ _ (by simp [h])

theorem sinceReply_concat_other (before : List OntMessage) (h : isReply m = false) :
    sinceReply (before ++ [m]) = sinceReply before ++ [m] := by
  unfold sinceReply
  exact List.rtakeWhile_concat_pos _ _ _ (by simp [h])

/-- Sorted messages are scanned to the cycles of their replies. -/
theorem scan_eq_cycles {before : List OntMessage}
    (hsorted : (before ++ l).Pairwise (fun a b => a.createdAt ≤ b.createdAt)) :
    scan senderFilter (firstCounted senderFilter (sinceReply before)) l =
      cycles senderFilter before l := by
  induction l generalizing before with
  | nil => rfl
  | cons m rest ih =>
      have hrest : ((before ++ [m]) ++ rest).Pairwise (fun a b => a.createdAt ≤ b.createdAt) := by
        rw [List.append_assoc, List.singleton_append]
        exact hsorted
      have hnext := ih hrest
      rw [cycles]
      cases hm : isReply m with
      | true =>
          rw [sinceReply_concat_reply before hm] at hnext
          have hcycle : (firstCounted senderFilter (sinceReply before)).bind (delta m.createdAt) =
              cycle senderFilter before m := by
            unfold firstCounted cycle
            cases hfind : (sinceReply before).find? (counts senderFilter) with
            | none => rfl
            | some first =>
                have hmem : first ∈ before :=
                  (List.rtakeWhile_suffix _ _).subset (List.mem_of_find?_eq_some hfind)
                have hle : first.createdAt ≤ m.createdAt :=
                  (List.pairwise_append.mp hsorted).2.2 first hmem m List.mem_cons_self
                rw [Option.map_some, Option.bind_some, Option.bind_some,
                  delta_eq m.inRange first.inRange hle]
          rw [scan_reply hm, hcycle, if_pos rfl, ← hnext]
          rfl
      | false =>
          rw [sinceReply_concat_other before hm] at hnext
          have hpending : pendingAfter senderFilter
              (firstCounted senderFilter (sinceReply before)) [m] =
              firstCounted senderFilter (sinceReply before ++ [m]) := by
            rw [pendingAfter_noReply (by simpa using hm)]
            unfold firstCounted
            rw [List.find?_append]
            cases (sinceReply before).find? (counts senderFilter) with
            | none => rfl
            | some first => rfl
          rw [scan_other hm, hpending, hnext]
          rfl

/-! ## Ties that are apart -/

theorem chronological_perm (messages : List OntMessage) :
    (chronological messages).Perm messages := perm_orderBy messages

theorem chronological_sorted (messages : List OntMessage) :
    (chronological messages).Pairwise (fun a b => a.createdAt ≤ b.createdAt) :=
  pairwise_orderBy (fun a b => Int.le_total a.createdAt b.createdAt)
    (fun a b c (hab : a.createdAt ≤ b.createdAt) (hbc : b.createdAt ≤ c.createdAt) =>
      Int.le_trans hab hbc) messages

/-- The first time that counts, in any order of equal times. -/
theorem firstCounted_perm {l' : List OntMessage} (hperm : l.Perm l')
    (h : l.Pairwise (fun a b => a.createdAt ≤ b.createdAt))
    (h' : l'.Pairwise (fun a b => a.createdAt ≤ b.createdAt)) :
    firstCounted senderFilter l = firstCounted senderFilter l' := by
  have hkeys := map_key_eq_of_perm (hperm.filter (counts senderFilter)) (h.filter _) (h'.filter _)
  have hhead : ∀ l : List OntMessage, firstCounted senderFilter l =
      ((l.filter (counts senderFilter)).map OntMessage.createdAt).head? := by
    intro l
    unfold firstCounted
    rw [List.head?_map, List.head?_filter]
  rw [hhead, hhead, hkeys]

/-- Behind a last reply of a time, that time is pending if a message of it counts and stands behind,
and otherwise the first later one. -/
theorem pendingAfter_sorted {y : OntMessage}
    (h : l.Pairwise (fun a b => a.createdAt ≤ b.createdAt)) (hmem : y ∈ l)
    (hreply : isReply y = true)
    (hlast : ∀ m ∈ l, isReply m = true → m.createdAt ≤ y.createdAt) :
    pendingAfter senderFilter none l =
        firstCounted senderFilter (l.filter (fun m => y.createdAt + 1 ≤ m.createdAt)) ∨
      pendingAfter senderFilter none l = some y.createdAt ∧
        ∃ m ∈ l, counts senderFilter m = true ∧ m.createdAt = y.createdAt := by
  have hlate := filter_lt_append (y.createdAt + 1) h
  have hgroup := filter_lt_append y.createdAt
    (h.filter (fun m => m.createdAt < y.createdAt + 1))
  have hnone : ∀ m ∈ l.filter (fun m => y.createdAt + 1 ≤ m.createdAt), isReply m = false := by
    intro m hm
    obtain ⟨hin, hge⟩ := List.mem_filter.mp hm
    by_contra hne
    have hle := hlast m hin (by simpa using hne)
    have hge' := of_decide_eq_true hge
    omega
  have hbehind : ∀ p, pendingAfter senderFilter p
      (l.filter (fun m => y.createdAt + 1 ≤ m.createdAt)) =
      p.or (firstCounted senderFilter (l.filter (fun m => y.createdAt + 1 ≤ m.createdAt))) :=
    fun p => pendingAfter_noReply hnone
  have htie := @pendingAfter_group senderFilter
    ((l.filter (fun m => m.createdAt < y.createdAt + 1)).filter
      (fun m => y.createdAt ≤ m.createdAt))
    (pendingAfter senderFilter none ((l.filter
      (fun m => m.createdAt < y.createdAt + 1)).filter (fun m => m.createdAt < y.createdAt)))
    y.createdAt ?_ ?_
  · rw [← pendingAfter_append, hgroup] at htie
    rcases htie with hquiet | ⟨hsome, m, hm, hcounts⟩
    · left
      conv_lhs => rw [← hlate]
      rw [pendingAfter_append, hquiet, hbehind, Option.none_or]
    · right
      obtain ⟨hin, hge⟩ := List.mem_filter.mp hm
      obtain ⟨hin, hlt⟩ := List.mem_filter.mp hin
      have hge' := of_decide_eq_true hge
      have hlt' := of_decide_eq_true hlt
      refine ⟨?_, m, hin, hcounts, by omega⟩
      conv_lhs => rw [← hlate]
      rw [pendingAfter_append, hsome, hbehind, Option.some_or]
  · intro m hm
    obtain ⟨hin, hge⟩ := List.mem_filter.mp hm
    obtain ⟨hin, hlt⟩ := List.mem_filter.mp hin
    have hge' := of_decide_eq_true hge
    have hlt' := of_decide_eq_true hlt
    omega
  · refine ⟨y, ?_, hreply⟩
    rw [List.mem_filter, List.mem_filter]
    exact ⟨⟨hmem, by simp⟩, by simp⟩

/-- The first one of sorted messages is the earliest. -/
theorem find?_le {kind : OntMessage → Bool} {first : OntMessage}
    (h : l.Pairwise (fun a b => a.createdAt ≤ b.createdAt)) (hfind : l.find? kind = some first)
    (hmem : m ∈ l) (hkind : kind m = true) : first.createdAt ≤ m.createdAt := by
  obtain ⟨-, before, behind, rfl, hbefore⟩ := List.find?_eq_some_iff_append.mp hfind
  rcases List.mem_append.mp hmem with hin | hin
  · have hno := hbefore m hin
    rw [hkind] at hno
    cases hno
  · rcases List.mem_cons.mp hin with rfl | hin
    · exact le_refl _
    · have hpair := (List.pairwise_append.mp h).2.1
      exact (List.pairwise_cons.mp hpair).1 m hin

section Apart

variable {messages p p' : List OntMessage} {room : String} {next : OntMessage}

/-- The list holds what the room shows before a time. -/
def Shows (messages : List OntMessage) (room : String) (bound : Int) (p : List OntMessage) : Prop :=
  ∀ m, m ∈ p ↔ m ∈ messages ∧ m.roomId = room ∧ m.createdAt < bound

/-- A pending time that a tie leaves open is too long ago for the next reply. -/
theorem quiet_of_tie (hapart : TiesApart senderFilter messages) {y trigger : OntMessage}
    (hnext : next ∈ messages ∧ next.roomId = room ∧ isReply next = true)
    (hp : p.Pairwise (fun a b => a.createdAt ≤ b.createdAt))
    (hshows : Shows messages room next.createdAt p) (hy : y ∈ p) (hreply : isReply y = true)
    (hlast : ∀ m ∈ p, isReply m = true → m.createdAt ≤ y.createdAt) (htrigger : trigger ∈ p)
    (hcounts : counts senderFilter trigger = true) (htied : trigger.createdAt = y.createdAt) :
    delta next.createdAt y.createdAt = none ∧
      (firstCounted senderFilter (p.filter (fun m => y.createdAt + 1 ≤ m.createdAt))).bind
        (delta next.createdAt) = none := by
  obtain ⟨hnextmem, hnextroom, hnextreply⟩ := hnext
  obtain ⟨hymem, hyroom, hylt⟩ := (hshows y).mp hy
  obtain ⟨htmem, htroom, -⟩ := (hshows trigger).mp htrigger
  have htie : Tie senderFilter messages y trigger next := by
    refine ⟨⟨hymem, htmem, hnextmem⟩, ⟨by rw [htroom, hyroom], by rw [hnextroom, hyroom]⟩,
      ⟨hreply, hnextreply⟩, hcounts, htied, hylt, fun m hm hmroom hmreply hlater => ?_⟩
    by_contra hlt
    have hin := (hshows m).mpr ⟨hm, by rw [hmroom, hyroom], by omega⟩
    have hle := hlast m hin hmreply
    omega
  obtain ⟨hday, hfirst⟩ := hapart y trigger next htie
  constructor
  · rw [delta_eq next.inRange y.inRange (by omega), if_neg (by omega)]
  · unfold firstCounted
    cases hfind : (p.filter (fun m => y.createdAt + 1 ≤ m.createdAt)).find?
        (counts senderFilter) with
    | none => rfl
    | some m =>
        obtain ⟨hin, hge⟩ := List.mem_filter.mp (List.mem_of_find?_eq_some hfind)
        obtain ⟨hmmem, hmroom, hmlt⟩ := (hshows m).mp hin
        have hge' := of_decide_eq_true hge
        have hlong := hfirst m
          ⟨hmmem, by rw [hmroom, hyroom], List.find?_some hfind, by omega, hmlt⟩ ?_
        · rw [Option.map_some, Option.bind_some, delta_eq next.inRange m.inRange (by omega),
            if_neg (by omega)]
        · rintro m' ⟨hm', hroom', hcounts', hlater', hlt'⟩
          refine find?_le (hp.filter _) hfind ?_ hcounts'
          rw [List.mem_filter, decide_eq_true_eq]
          exact ⟨(hshows m').mpr ⟨hm', by rw [hroom', hyroom], hlt'⟩, by omega⟩

/-- What the next reply closes does not depend on the order before it. -/
theorem pending_perm (hapart : TiesApart senderFilter messages) (hperm : p.Perm p')
    (hp : p.Pairwise (fun a b => a.createdAt ≤ b.createdAt))
    (hp' : p'.Pairwise (fun a b => a.createdAt ≤ b.createdAt))
    (hshows : Shows messages room next.createdAt p)
    (hnext : next ∈ messages ∧ next.roomId = room ∧ isReply next = true) :
    (pendingAfter senderFilter none p).bind (delta next.createdAt) =
      (pendingAfter senderFilter none p').bind (delta next.createdAt) := by
  by_cases hreplies : ∃ y ∈ p, isReply y = true
  · obtain ⟨y, hy, hlast⟩ := Finset.exists_max_image (p.filter isReply).toFinset
      OntMessage.createdAt (by
        obtain ⟨y, hmem, hreply⟩ := hreplies
        exact ⟨y, by rw [List.mem_toFinset, List.mem_filter]; exact ⟨hmem, hreply⟩⟩)
    obtain ⟨hmem, hreply⟩ := List.mem_filter.mp (List.mem_toFinset.mp hy)
    have hlast' : ∀ m ∈ p, isReply m = true → m.createdAt ≤ y.createdAt := fun m hm hr =>
      hlast m (by rw [List.mem_toFinset, List.mem_filter]; exact ⟨hm, hr⟩)
    have hsame := @firstCounted_perm senderFilter _ _
      (hperm.filter (fun m => y.createdAt + 1 ≤ m.createdAt)) (hp.filter _) (hp'.filter _)
    have hcase := @pendingAfter_sorted senderFilter _ y hp hmem hreply hlast'
    have hcase' := @pendingAfter_sorted senderFilter _ y hp' (hperm.mem_iff.mp hmem)
      hreply (fun m hm hr => hlast' m (hperm.mem_iff.mpr hm) hr)
    have hquiet : (∃ m ∈ p, counts senderFilter m = true ∧ m.createdAt = y.createdAt) →
        delta next.createdAt y.createdAt = none ∧
          (firstCounted senderFilter (p.filter (fun m => y.createdAt + 1 ≤ m.createdAt))).bind
            (delta next.createdAt) = none := by
      rintro ⟨m, hm, hcounts, htied⟩
      exact quiet_of_tie hapart hnext hp hshows hmem hreply hlast' hm hcounts htied
    rcases hcase with hfirst | ⟨hpending, htrigger⟩
    · rcases hcase' with hfirst' | ⟨hpending', m, hm, hcounts, htied⟩
      · rw [hfirst, hfirst', hsame]
      · obtain ⟨hnone, hnone'⟩ := hquiet ⟨m, hperm.mem_iff.mpr hm, hcounts, htied⟩
        rw [hfirst, hpending', hnone', Option.bind_some, hnone]
    · obtain ⟨hnone, hnone'⟩ := hquiet htrigger
      rcases hcase' with hfirst' | ⟨hpending', -⟩
      · rw [hpending, hfirst', ← hsame, hnone', Option.bind_some, hnone]
      · rw [hpending, hpending']
  · have hno : ∀ m ∈ p, isReply m = false := by
      intro m hm
      by_contra hne
      exact hreplies ⟨m, hm, by simpa using hne⟩
    rw [pendingAfter_noReply hno,
      pendingAfter_noReply (fun m hm => hno m (hperm.mem_iff.mpr hm)),
      firstCounted_perm hperm hp hp']

/-- The scan does not depend on the order of equal times. -/
theorem scan_perm (hapart : TiesApart senderFilter messages) {bound : Int} (hperm : p.Perm p')
    (hp : p.Pairwise (fun a b => a.createdAt ≤ b.createdAt))
    (hp' : p'.Pairwise (fun a b => a.createdAt ≤ b.createdAt))
    (hshows : Shows messages room bound p) :
    scan senderFilter none p = scan senderFilter none p' := by
  -- The induction takes off all messages of the last time at once.
  induction hn : p.length using Nat.strong_induction_on generalizing p p' bound with
  | _ n ih =>
      cases hlast : p.getLast? with
      | none =>
          rw [List.getLast?_eq_none_iff.mp hlast] at hperm ⊢
          rw [hperm.nil_eq]
      | some last =>
          have hmem : last ∈ p := List.mem_of_getLast? hlast
          have hmax : ∀ m ∈ p, m.createdAt ≤ last.createdAt := by
            obtain ⟨front, rfl⟩ := List.getLast?_eq_some_iff.mp hlast
            intro m hm
            rcases List.mem_append.mp hm with hm | hm
            · exact (List.pairwise_append.mp hp).2.2 m hm last List.mem_cons_self
            · rw [List.mem_singleton.mp hm]
          have hgroup := filter_lt_append last.createdAt hp
          have hgroup' := filter_lt_append last.createdAt hp'
          have htime : ∀ m ∈ p.filter (fun m => last.createdAt ≤ m.createdAt),
              m.createdAt = last.createdAt := by
            intro m hm
            obtain ⟨hin, hge⟩ := List.mem_filter.mp hm
            exact le_antisymm (hmax m hin) (of_decide_eq_true hge)
          have htime' : ∀ m ∈ p'.filter (fun m => last.createdAt ≤ m.createdAt),
              m.createdAt = last.createdAt := by
            intro m hm
            exact htime m ((hperm.filter _).mem_iff.mpr hm)
          have hshort : (p.filter (fun m => m.createdAt < last.createdAt)).length < n := by
            rw [← hn, List.length_filter_lt_length_iff_exists]
            exact ⟨last, hmem, by simp⟩
          have hbefore : Shows messages room last.createdAt
              (p.filter (fun m => m.createdAt < last.createdAt)) := by
            have hlt := ((hshows last).mp hmem).2.2
            intro m
            rw [List.mem_filter, hshows m, decide_eq_true_eq]
            constructor
            · rintro ⟨⟨hin, hroom, -⟩, hlt⟩
              exact ⟨hin, hroom, hlt⟩
            · rintro ⟨hin, hroom, hlt'⟩
              exact ⟨⟨hin, hroom, by omega⟩, hlt'⟩
          have hih := ih _ hshort (hperm.filter _) (hp.filter _) (hp'.filter _) hbefore rfl
          rw [← hgroup, ← hgroup', scan_append, scan_append, hih, scan_group htime,
            scan_group htime']
          have hsame : (∃ m ∈ p.filter (fun m => last.createdAt ≤ m.createdAt),
                isReply m = true) ↔
              ∃ m ∈ p'.filter (fun m => last.createdAt ≤ m.createdAt), isReply m = true := by
            simp only [(hperm.filter (fun m => decide (last.createdAt ≤ m.createdAt))).mem_iff]
          by_cases hreply : ∃ m ∈ p.filter (fun m => last.createdAt ≤ m.createdAt),
              isReply m = true
          · rw [if_pos hreply, if_pos (hsame.mp hreply)]
            obtain ⟨next, hnext, hnextreply⟩ := hreply
            have hat := htime next hnext
            obtain ⟨hin, hroom, -⟩ := (hshows next).mp (List.mem_filter.mp hnext).1
            rw [← hat] at hbefore ⊢
            rw [pending_perm hapart (hperm.filter _) (hp.filter _) (hp'.filter _) hbefore
              ⟨hin, hroom, hnextreply⟩]
          · rw [if_neg hreply, if_neg (fun h => hreply (hsame.mpr h))]

end Apart

/-! ## A tie that is not apart -/

section Swap

variable {messages : List OntMessage} {reply trigger next : OntMessage}

/-- The replies of the tie. -/
def tiedReply (reply m : OntMessage) : Bool :=
  isReply m && m.roomId = reply.roomId && m.createdAt = reply.createdAt

/-- The tied replies last, and first. -/
def repliesLast (reply : OntMessage) (messages : List OntMessage) : List OntMessage :=
  messages.filter (fun m => !tiedReply reply m) ++ messages.filter (tiedReply reply)

def repliesFirst (reply : OntMessage) (messages : List OntMessage) : List OntMessage :=
  messages.filter (tiedReply reply) ++ messages.filter (fun m => !tiedReply reply m)

theorem repliesFirst_perm (reply : OntMessage) (messages : List OntMessage) :
    (repliesFirst reply messages).Perm messages :=
  List.filter_append_perm _ _

theorem repliesLast_perm (reply : OntMessage) (messages : List OntMessage) :
    (repliesLast reply messages).Perm messages :=
  List.perm_append_comm.trans (repliesFirst_perm reply messages)

/-- What selects none of the replies selects the same of both. -/
theorem filter_swap {kind : OntMessage → Bool}
    (hkind : ∀ m, tiedReply reply m = true → kind m = false) :
    (repliesLast reply messages).filter kind = (repliesFirst reply messages).filter kind := by
  have hnone : (messages.filter (tiedReply reply)).filter kind = [] := by
    rw [List.filter_eq_nil_iff]
    intro m hm
    simp [hkind m (List.mem_filter.mp hm).2]
  unfold repliesLast repliesFirst
  rw [List.filter_append, List.filter_append, hnone, List.append_nil, List.nil_append]

theorem filter_chronological (kind : OntMessage → Bool) (messages : List OntMessage) :
    (chronological messages).filter kind = chronological (messages.filter kind) :=
  filter_orderBy (fun a b : OntMessage => Int.le_total a.createdAt b.createdAt)
    (fun a b c (hab : a.createdAt ≤ b.createdAt) (hbc : b.createdAt ≤ c.createdAt) =>
      Int.le_trans hab hbc) kind messages

/-- Messages of one time stay in the order of the caller. -/
theorem chronological_of_time (h : ∀ m ∈ l, m.createdAt = t) : chronological l = l := by
  refine orderBy_of_pairwise (List.pairwise_of_forall_mem_list fun a ha b hb => ?_)
  rw [h a ha, h b hb]

/-- A room before, at and after a time. -/
theorem chronological_parts (messages : List OntMessage) (t : Int) :
    chronological messages =
      chronological (messages.filter (fun m => m.createdAt < t)) ++
        (messages.filter (fun m => m.createdAt = t) ++
          chronological (messages.filter (fun m => t + 1 ≤ m.createdAt))) := by
  have hsorted := chronological_sorted messages
  have hgroup : (chronological messages).filter (fun m => m.createdAt = t) =
      messages.filter (fun m => m.createdAt = t) := by
    rw [filter_chronological]
    exact chronological_of_time (fun m hm => of_decide_eq_true (List.mem_filter.mp hm).2)
  have hparts := filter_lt_append t hsorted
  have hbehind := filter_lt_append (t + 1)
    (hsorted.filter (fun m => t ≤ m.createdAt))
  rw [List.filter_filter, List.filter_filter] at hbehind
  rw [← filter_chronological, ← hgroup, ← filter_chronological]
  have hat : (chronological messages).filter (fun m => m.createdAt = t) =
      (chronological messages).filter
        (fun m => decide (m.createdAt < t + 1) && decide (t ≤ m.createdAt)) := by
    refine List.filter_congr fun m _ => ?_
    rw [Bool.eq_iff_iff]
    simp only [Bool.and_eq_true, decide_eq_true_eq]
    omega
  have hafter : (chronological messages).filter (fun m => t + 1 ≤ m.createdAt) =
      (chronological messages).filter
        (fun m => decide (t + 1 ≤ m.createdAt) && decide (t ≤ m.createdAt)) := by
    refine List.filter_congr fun m _ => ?_
    rw [Bool.eq_iff_iff]
    simp only [Bool.and_eq_true, decide_eq_true_eq]
    omega
  rw [hat, hafter, hbehind, hparts]

/-- The two orders differ in what the next reply closes, and in nothing else of the room. -/
theorem roomDeltas_swap (htie : Tie senderFilter messages reply trigger next) :
    ∃ front between back : List OntMessage, ∃ last : OntMessage,
      (∀ m, m ∈ between ++ last :: back ↔
        m ∈ messages ∧ m.roomId = reply.roomId ∧ reply.createdAt < m.createdAt) ∧
      (between ++ last :: back).Pairwise (fun a b => a.createdAt ≤ b.createdAt) ∧
      last.createdAt = next.createdAt ∧
      roomDeltas senderFilter (repliesLast reply messages) reply.roomId =
        scan senderFilter none front ++
          (((firstCounted senderFilter between).bind (delta next.createdAt)).toList ++
            scan senderFilter none back) ∧
      roomDeltas senderFilter (repliesFirst reply messages) reply.roomId =
        scan senderFilter none front ++ ((delta next.createdAt reply.createdAt).toList ++
          scan senderFilter none back) := by
  obtain ⟨⟨hreplymem, htriggermem, hnextmem⟩, ⟨htroom, hnroom⟩, ⟨hreply, hnextreply⟩, hcounts,
    htied, hlater, hfirst⟩ := htie
  let inRoom := fun m : OntMessage => decide (m.roomId = reply.roomId)
  let before := fun m : OntMessage => decide (m.createdAt < reply.createdAt)
  let at' := fun m : OntMessage => decide (m.createdAt = reply.createdAt)
  let after := fun m : OntMessage => decide (reply.createdAt + 1 ≤ m.createdAt)
  -- Before and after the tie the orders agree.
  have hbefore : ((repliesLast reply messages).filter inRoom).filter before =
      ((repliesFirst reply messages).filter inRoom).filter before := by
    rw [List.filter_filter, List.filter_filter]
    refine filter_swap fun m hm => ?_
    simp only [tiedReply, Bool.and_eq_true, decide_eq_true_eq] at hm
    simp [before, hm.2]
  have hafter : ((repliesLast reply messages).filter inRoom).filter after =
      ((repliesFirst reply messages).filter inRoom).filter after := by
    rw [List.filter_filter, List.filter_filter]
    refine filter_swap fun m hm => ?_
    simp only [tiedReply, Bool.and_eq_true, decide_eq_true_eq] at hm
    simp [after, hm.2]
  -- At the tie the replies stand last or first.
  let replies := messages.filter (tiedReply reply)
  let others := ((messages.filter (fun m => !tiedReply reply m)).filter inRoom).filter at'
  have hreplies : (replies.filter inRoom).filter at' = replies := by
    rw [List.filter_filter, List.filter_eq_self]
    intro m hm
    have hkind := (List.mem_filter.mp hm).2
    simp only [tiedReply, Bool.and_eq_true, decide_eq_true_eq] at hkind
    simp [inRoom, at', hkind.1.2, hkind.2]
  have hgroupLast : ((repliesLast reply messages).filter inRoom).filter at' =
      others ++ replies := by
    unfold repliesLast
    rw [List.filter_append, List.filter_append, hreplies]
  have hgroupFirst : ((repliesFirst reply messages).filter inRoom).filter at' =
      replies ++ others := by
    unfold repliesFirst
    rw [List.filter_append, List.filter_append, hreplies]
  have hothers : ∀ m ∈ others, m.createdAt = reply.createdAt ∧ isReply m = false := by
    intro m hm
    obtain ⟨hm, hat⟩ := List.mem_filter.mp hm
    obtain ⟨hm, hroom⟩ := List.mem_filter.mp hm
    have hkind := (List.mem_filter.mp hm).2
    have hat' : m.createdAt = reply.createdAt := of_decide_eq_true hat
    have hroom' : m.roomId = reply.roomId := of_decide_eq_true hroom
    refine ⟨hat', ?_⟩
    by_contra hne
    simp [tiedReply, hat', hroom', hne] at hkind
  have hallReplies : ∀ m ∈ replies, isReply m = true ∧ m.createdAt = reply.createdAt := by
    intro m hm
    have hkind := (List.mem_filter.mp hm).2
    simp only [tiedReply, Bool.and_eq_true, decide_eq_true_eq] at hkind
    exact ⟨hkind.1.1, hkind.2⟩
  have hreplyIn : reply ∈ replies := by
    refine List.mem_filter.mpr ⟨hreplymem, ?_⟩
    simp [tiedReply, hreply]
  have htriggerIn : trigger ∈ others := by
    refine List.mem_filter.mpr ⟨List.mem_filter.mpr ⟨List.mem_filter.mpr ⟨htriggermem, ?_⟩, ?_⟩, ?_⟩
    · simp [tiedReply, not_isReply_of_counts hcounts]
    · simp [inRoom, htroom]
    · simp [at', htied]
  -- What is pending behind the tie.
  have hpendingLast : ∀ p, pendingAfter senderFilter p (others ++ replies) = none := by
    intro p
    rw [pendingAfter_append]
    exact pendingAfter_replies (List.ne_nil_of_mem hreplyIn) (fun m hm => (hallReplies m hm).1)
  have hpendingFirst : ∀ p, pendingAfter senderFilter p (replies ++ others) =
      some reply.createdAt := by
    intro p
    rw [pendingAfter_append, pendingAfter_replies (List.ne_nil_of_mem hreplyIn)
      (fun m hm => (hallReplies m hm).1), pendingAfter_noReply (fun m hm => (hothers m hm).2),
      Option.none_or]
    unfold firstCounted
    cases hfind : others.find? (counts senderFilter) with
    | none =>
        rw [List.find?_eq_none] at hfind
        exact absurd hcounts (hfind trigger htriggerIn)
    | some m =>
        rw [Option.map_some, (hothers m (List.mem_of_find?_eq_some hfind)).1]
  have htimes : ∀ m ∈ replies ++ others, m.createdAt = reply.createdAt := by
    intro m hm
    rcases List.mem_append.mp hm with hm | hm
    · exact (hallReplies m hm).2
    · exact (hothers m hm).1
  have hcomm : ∀ m, m ∈ others ++ replies ↔ m ∈ replies ++ others :=
    fun m => List.perm_append_comm.mem_iff
  have hscan : ∀ p, scan senderFilter p (others ++ replies) =
      scan senderFilter p (replies ++ others) := by
    intro p
    rw [scan_group (fun m hm => htimes m ((hcomm m).mp hm)), scan_group htimes]
    simp only [hcomm]
  -- The next reply.
  have hmem : ∀ m, m ∈ chronological (((repliesFirst reply messages).filter inRoom).filter after) ↔
      m ∈ messages ∧ m.roomId = reply.roomId ∧ reply.createdAt < m.createdAt := by
    intro m
    rw [(chronological_perm _).mem_iff, List.mem_filter, List.mem_filter,
      (repliesFirst_perm reply messages).mem_iff]
    simp only [inRoom, after, decide_eq_true_eq]
    rw [and_assoc, Int.add_one_le_iff]
  have hsorted := chronological_sorted (((repliesFirst reply messages).filter inRoom).filter after)
  have hnextIn := (hmem next).mpr ⟨hnextmem, hnroom, hlater⟩
  cases hfind : (chronological (((repliesFirst reply messages).filter inRoom).filter after)).find?
      isReply with
  | none =>
      rw [List.find?_eq_none] at hfind
      exact absurd hnextreply (hfind next hnextIn)
  | some last =>
      have hle := find?_le hsorted hfind hnextIn hnextreply
      have hlast := (hmem last).mp (List.mem_of_find?_eq_some hfind)
      have hge := hfirst last hlast.1 hlast.2.1 (List.find?_some hfind) hlast.2.2
      have htime : last.createdAt = next.createdAt := by omega
      obtain ⟨hlastreply, between, back, hsplit, hbetween⟩ :=
        List.find?_eq_some_iff_append.mp hfind
      have hquiet : ∀ m ∈ between, isReply m = false := by
        intro m hm
        simpa using hbetween m hm
      have hback : ∀ p, scan senderFilter p (between ++ last :: back) =
          ((p.or (firstCounted senderFilter between)).bind (delta next.createdAt)).toList ++
            scan senderFilter none back := by
        intro p
        rw [scan_append, scan_noReply hquiet, List.nil_append, scan_reply hlastreply,
          pendingAfter_noReply hquiet, htime]
      have hparts : ∀ ms : List OntMessage, roomDeltas senderFilter ms reply.roomId =
          scan senderFilter none (chronological ((ms.filter inRoom).filter before) ++
            ((ms.filter inRoom).filter at' ++
              chronological ((ms.filter inRoom).filter after))) := fun ms => by
        unfold roomDeltas
        rw [chronological_parts _ reply.createdAt]
      refine ⟨chronological (((repliesFirst reply messages).filter inRoom).filter before) ++
        (replies ++ others), between, back, last, ?_, ?_, htime, ?_, ?_⟩
      · rw [← hsplit]
        exact hmem
      · rw [← hsplit]
        exact hsorted
      · rw [hparts, hbefore, hafter, hgroupLast, hsplit, ← List.append_assoc, scan_append,
          scan_append, hscan, ← scan_append, pendingAfter_append, hpendingLast, hback,
          Option.none_or]
      · rw [hparts, hgroupFirst, hsplit, ← List.append_assoc, scan_append, pendingAfter_append,
          hpendingFirst, hback, Option.some_or, Option.bind_some]

end Swap

/-! ## The order of the caller -/

theorem scan_range {d : Int} (h : d ∈ scan senderFilter pending l) : 0 < d ∧ d ≤ 86400 := by
  induction l generalizing pending with
  | nil => cases h
  | cons m rest ih =>
      cases hm : isReply m with
      | false =>
          rw [scan_other hm] at h
          exact ih h
      | true =>
          rw [scan_reply hm, List.mem_append] at h
          rcases h with h | h
          · obtain ⟨triggerTs, -, hdelta⟩ := Option.bind_eq_some_iff.mp (Option.mem_toList.mp h)
            unfold delta at hdelta
            dsimp only at hdelta
            rw [Option.ite_none_right_eq_some, Option.some.injEq] at hdelta
            rw [← hdelta.2]
            exact hdelta.1
          · exact ih h

theorem roomDeltas_eq_cycles (messages : List OntMessage) (room : String) :
    roomDeltas senderFilter messages room =
      cycles senderFilter [] (chronological (messages.filter (fun m => m.roomId = room))) :=
  @scan_eq_cycles senderFilter _ [] (by rw [List.nil_append]; exact chronological_sorted _)

theorem roomDeltas_perm {messages messages' : List OntMessage}
    (hapart : TiesApart senderFilter messages) (hperm : messages'.Perm messages) (room : String) :
    roomDeltas senderFilter messages' room = roomDeltas senderFilter messages room := by
  have hrooms : (chronological (messages.filter (fun m => m.roomId = room))).Perm
      (chronological (messages'.filter (fun m => m.roomId = room))) :=
    (chronological_perm _).trans ((hperm.symm.filter _).trans (chronological_perm _).symm)
  refine (@scan_perm senderFilter messages _ _ room hapart (i32Max + 1) hrooms
    (chronological_sorted _) (chronological_sorted _) fun m => ?_).symm
  rw [(chronological_perm _).mem_iff, List.mem_filter, decide_eq_true_eq]
  constructor
  · exact fun h => ⟨h.1, h.2, Int.lt_add_one_iff.mpr m.inRange.2⟩
  · exact fun h => ⟨h.1, h.2.1⟩

/-- Two orders that agree on all deltas agree in each room that they show alike elsewhere. -/
theorem roomDeltas_eq_of_compute {messages first second : List OntMessage} {room : String}
    (hmem : room ∈ messages.map (·.roomId)) (hfirst : first.Perm messages)
    (hsecond : second.Perm messages)
    (h : computeResponseDeltas senderFilter first = computeResponseDeltas senderFilter second)
    (hothers : ∀ other, other ≠ room →
      roomDeltas senderFilter first other = roomDeltas senderFilter second other) :
    (roomDeltas senderFilter first room : Multiset Int) = roomDeltas senderFilter second room := by
  unfold computeResponseDeltas at h
  rw [List.toFinset_eq_of_perm _ _ (hfirst.map _), List.toFinset_eq_of_perm _ _ (hsecond.map _),
    ← Finset.add_sum_erase _ _ (List.mem_toFinset.mpr hmem),
    ← Finset.add_sum_erase _ _ (List.mem_toFinset.mpr hmem)] at h
  have hrest : ∑ other ∈ (messages.map (·.roomId)).toFinset.erase room,
        (roomDeltas senderFilter first other : Multiset Int) =
      ∑ other ∈ (messages.map (·.roomId)).toFinset.erase room,
        (roomDeltas senderFilter second other : Multiset Int) :=
    Finset.sum_congr rfl fun other hother => by rw [hothers other (Finset.mem_erase.mp hother).1]
  rw [hrest] at h
  exact add_right_cancel h

/-- A tie that is not apart shows in the deltas. -/
theorem apart_of_orderFree {messages : List OntMessage}
    (h : ∀ messages' : List OntMessage, messages'.Perm messages →
      computeResponseDeltas senderFilter messages' = computeResponseDeltas senderFilter messages) :
    TiesApart senderFilter messages := by
  intro reply trigger next htie
  obtain ⟨front, between, back, last, hmem, hsorted, htime, hlast, hfirst⟩ := roomDeltas_swap htie
  have hsame := roomDeltas_eq_of_compute
    (@List.mem_map_of_mem _ _ _ _ OntMessage.roomId htie.mem.1) (repliesLast_perm reply messages)
    (repliesFirst_perm reply messages)
    ((h _ (repliesLast_perm reply messages)).trans (h _ (repliesFirst_perm reply messages)).symm)
    (fun other hother => by
      unfold roomDeltas
      rw [filter_swap fun m hm => ?_]
      simp only [tiedReply, Bool.and_eq_true, decide_eq_true_eq] at hm
      simpa [hm.1.2] using hother.symm)
  rw [hlast, hfirst, ← Multiset.coe_add, ← Multiset.coe_add, ← Multiset.coe_add,
    ← Multiset.coe_add] at hsame
  have hlists := add_right_cancel (add_left_cancel hsame)
  have hdelta : (firstCounted senderFilter between).bind (delta next.createdAt) =
      delta next.createdAt reply.createdAt := by
    rw [Multiset.coe_eq_coe] at hlists
    revert hlists
    cases (firstCounted senderFilter between).bind (delta next.createdAt) with
    | none =>
        cases delta next.createdAt reply.createdAt with
        | none => exact fun _ => rfl
        | some d => exact fun hp => absurd hp.length_eq (by simp)
    | some d =>
        cases delta next.createdAt reply.createdAt with
        | none => exact fun hp => absurd hp.length_eq (by simp)
        | some d' =>
            intro hp
            rw [Option.toList_some, Option.toList_some, List.perm_singleton] at hp
            rw [List.cons.inj hp |>.1]
  have hlater := htie.later
  rw [delta_eq next.inRange reply.inRange hlater.le] at hdelta
  -- The first message that counts behind the tie is later than the tie.
  have hbetween : ∀ m, between.find? (counts senderFilter) = some m →
      reply.createdAt < m.createdAt ∧ m.createdAt ≤ next.createdAt ∧ m ∈ messages ∧
        m.roomId = reply.roomId ∧ counts senderFilter m = true := by
    intro m hfind
    have hin := List.mem_of_find?_eq_some hfind
    obtain ⟨hm, hroom, hlt⟩ := (hmem m).mp (List.mem_append_left _ hin)
    have hle := (List.pairwise_append.mp hsorted).2.2 m hin last List.mem_cons_self
    exact ⟨hlt, by omega, hm, hroom, List.find?_some hfind⟩
  have hday : 86400 < next.createdAt - reply.createdAt := by
    by_contra hshort
    rw [if_pos ⟨by omega, by omega⟩] at hdelta
    unfold firstCounted at hdelta
    cases hfind : between.find? (counts senderFilter) with
    | none => rw [hfind] at hdelta; cases hdelta
    | some m =>
        obtain ⟨hlt, hle, -⟩ := hbetween m hfind
        rw [hfind, Option.map_some, Option.bind_some, delta_eq next.inRange m.inRange hle] at hdelta
        split at hdelta
        · rw [Option.some.injEq] at hdelta
          omega
        · cases hdelta
  refine ⟨hday, fun m hm hmin => ?_⟩
  rw [if_neg (by omega)] at hdelta
  obtain ⟨hmmem, hroom, hcounts, hstart, hstop⟩ := hm
  have hin : m ∈ between := by
    rcases List.mem_append.mp ((hmem m).mpr ⟨hmmem, hroom, hstart⟩) with hin | hin
    · exact hin
    · exfalso
      rcases List.mem_cons.mp hin with rfl | hin
      · omega
      · have hle := (List.pairwise_cons.mp (List.pairwise_append.mp hsorted).2.1).1 m hin
        omega
  unfold firstCounted at hdelta
  cases hfind : between.find? (counts senderFilter) with
  | none =>
      rw [List.find?_eq_none] at hfind
      exact absurd hcounts (hfind m hin)
  | some m' =>
      obtain ⟨hlt, hle, hmem', hroom', hcounts'⟩ := hbetween m' hfind
      have hfirst' := find?_le (List.pairwise_append.mp hsorted).1 hfind hin hcounts
      have hback := hmin m' ⟨hmem', hroom', hcounts', hlt, by omega⟩
      rw [hfind, Option.map_some, Option.bind_some, delta_eq next.inRange m'.inRange hle,
        ite_eq_right_iff] at hdelta
      by_contra hshort
      exact absurd (hdelta ⟨by omega, by omega⟩) (by simp)

end

/-- The deltas do not depend on the order of the messages exactly where ties are apart. -/
theorem computeResponseDeltas_orderFree_iff (senderFilter : Option String)
    (messages : List OntMessage) :
    OrderFree senderFilter messages ↔ TiesApart senderFilter messages := by
  constructor
  · exact fun h => apart_of_orderFree h.1
  · intro hapart
    refine ⟨fun messages' hperm => ?_, fun d hd => ?_, ?_⟩
    · unfold computeResponseDeltas
      rw [List.toFinset_eq_of_perm _ _ (hperm.map _)]
      exact Finset.sum_congr rfl fun room _ => by rw [roomDeltas_perm hapart hperm room]
    · unfold computeResponseDeltas at hd
      obtain ⟨room, -, hin⟩ := Multiset.mem_sum.mp hd
      exact scan_range (Multiset.mem_coe.mp hin)
    · exact Finset.sum_congr rfl fun room _ => by rw [roomDeltas_eq_cycles]

/-! ## A tie -/

def messageAt (senderName : String) (createdAt : Int)
    (inRange : i32Min ≤ createdAt ∧ createdAt ≤ i32Max) : OntMessage :=
  ⟨"!room", senderName, createdAt, inRange⟩

/-- A message of the second of a reply, before or behind it. -/
theorem computeResponseDeltas_tie :
    ¬ OrderFree none [messageAt "You" 100 (by decide), messageAt "Ann" 100 (by decide),
      messageAt "You" 160 (by decide)] := by
  intro h
  have hperm := h.1 [messageAt "Ann" 100 (by decide), messageAt "You" 100 (by decide),
    messageAt "You" 160 (by decide)] (List.Perm.swap _ _ _)
  revert hperm
  decide +kernel

end Lightfriend.Ontology.ResponseDeltas
