import Lightfriend.Core.Program
import Lightfriend.Core.Transition

/-! # Calls that interleave

The calls of a system issue their statements in any order. A call is in the
middle of its writes from its first write to its end. When no other call writes
meanwhile, when every first write finds the store as its call decided on it, and
when no call ends without a write on what it read in the middle of another's
writes, the calls leave the store as some sequential order of them does.
-/

namespace Lightfriend

structure Thread (S : Type) (A : S → Type) (ι ρ σ : Type) where
  call : Call S A ι ρ
  /-- What is left of the call. -/
  rest : Call S A ι ρ
  /-- The store when the call read it last. -/
  seen : Option σ
  /-- Another call was in the middle of its writes then. -/
  torn : Bool
  wrote : Bool

structure Interleaved (S : Type) (A : S → Type) (ι ρ σ : Type) where
  store : σ
  threads : List (Thread S A ι ρ σ)

section Interleaving

variable {S : Type} {A : S → Type} {ι ρ σ κ : Type} {exec : Exec S A ι σ}

namespace Thread

def start (c : Call S A ι ρ) : Thread S A ι ρ σ := ⟨c, c, none, false, false⟩

def isDone (th : Thread S A ι ρ σ) : Bool := th.rest.program.isDone

/-- In the middle of its writes. -/
def isWriting (th : Thread S A ι ρ σ) : Bool := th.wrote && !th.isDone

/-- The thread after its statement `s`, issued on the store `t`. -/
def after (access : Access exec κ) (th : Thread S A ι ρ σ) (t : σ) (torn : Bool) (s : S)
    (rest : A s → Program S A ρ) : Thread S A ι ρ σ where
  call := th.call
  rest := ⟨rest (exec s (th.rest.inputs 0) t).2, laterInputs th.rest.inputs⟩
  seen := if access.reads s then some t else th.seen
  torn := if access.reads s then torn else th.torn
  wrote := th.wrote || access.writes s (th.rest.inputs 0)

end Thread

namespace Interleaved

def start (calls : List (Call S A ι ρ)) (t : σ) : Interleaved S A ι ρ σ :=
  ⟨t, calls.map Thread.start⟩

/-- Some call other than the `i`th is in the middle of its writes. -/
def othersWriting (s : Interleaved S A ι ρ σ) (i : Nat) : Bool :=
  (s.threads.eraseIdx i).any Thread.isWriting

/-- The `i`th call issues its next statement. -/
def step (access : Access exec κ) (s : Interleaved S A ι ρ σ) (i : Nat) :
    Option (Interleaved S A ι ρ σ) :=
  match s.threads[i]? with
  | none => none
  | some th =>
      match th.rest.program with
      | .done _ => none
      | .issue stmt rest => some
          { store := (exec stmt (th.rest.inputs 0) s.store).1
            threads := s.threads.set i
              (th.after access s.store (s.othersWriting i) stmt rest) }

def finished (s : Interleaved S A ι ρ σ) : List (Call S A ι ρ) :=
  (s.threads.filter Thread.isDone).map Thread.call

/-- The step keeps the calls apart; `agree` says when a statement decided on one store is due on
another. -/
def inTurn (access : Access exec κ) (agree : S → σ → σ → Bool) (s : Interleaved S A ι ρ σ)
    (i : Nat) : Bool :=
  match s.threads[i]? with
  | none => true
  | some th =>
      match th.rest.program with
      | .done _ => true
      | .issue stmt rest =>
          (!access.writes stmt (th.rest.inputs 0) || (!s.othersWriting i &&
            (th.wrote || th.seen.all (fun v => agree stmt v s.store)))) &&
          (!(th.after access s.store (s.othersWriting i) stmt rest).isDone ||
            (th.after access s.store (s.othersWriting i) stmt rest).wrote ||
              !(th.after access s.store (s.othersWriting i) stmt rest).torn)

end Interleaved

/-- A call that decides on its first write from one reading of the store, and would decide the
same on any store that agrees with it. -/
structure Orderly (access : Access exec κ) (agree : S → σ → σ → Bool) (c : Call S A ι ρ) :
    Prop where
  starts : c.program.isDone = false
  readsOnce : access.ReadsOnce false c.program c.inputs
  replays : ∀ v t s rest inputs, access.fixed v = access.fixed t → agree s v t = true →
    access.pause v c.program c.inputs = ⟨.issue s rest, inputs⟩ →
      access.pause t c.program c.inputs = ⟨.issue s rest, inputs⟩

/-! ## Replacing one thread -/

section Replace

variable {s : Interleaved S A ι ρ σ} {i : Nat} {th th' : Thread S A ι ρ σ}

theorem split_at {l : List (Thread S A ι ρ σ)} (h : l[i]? = some th)
    (th' : Thread S A ι ρ σ) :
    ∃ before after, l = before ++ th :: after ∧ l.set i th' = before ++ th' :: after := by
  obtain ⟨hlt, hget⟩ := List.getElem?_eq_some_iff.mp h
  refine ⟨l.take i, l.drop (i + 1), ?_, List.set_eq_take_append_cons_drop.trans (if_pos hlt)⟩
  rw [← hget, List.getElem_cons_drop, List.take_append_drop]

/-- A finished thread adds its call. -/
theorem finished_set_done {t : σ} (h : s.threads[i]? = some th) (hcall : th'.call = th.call)
    (hbefore : th.isDone = false) (hafter : th'.isDone = true) :
    (Interleaved.mk t (s.threads.set i th')).finished.Perm (th.call :: s.finished) := by
  obtain ⟨before, after, hl, hset⟩ := split_at h th'
  change (((s.threads.set i th').filter Thread.isDone).map Thread.call).Perm
    (th.call :: (s.threads.filter Thread.isDone).map Thread.call)
  rw [hset, hl, List.filter_append, List.filter_append, List.filter_cons_of_pos hafter,
    List.filter_cons_of_neg (by simp [hbefore]), List.map_append, List.map_append, List.map_cons,
    hcall]
  exact List.perm_middle

/-- A thread that goes on adds none. -/
theorem finished_set_going {t : σ} (h : s.threads[i]? = some th)
    (hbefore : th.isDone = false) (hafter : th'.isDone = false) :
    (Interleaved.mk t (s.threads.set i th')).finished = s.finished := by
  obtain ⟨before, after, hl, hset⟩ := split_at h th'
  change ((s.threads.set i th').filter Thread.isDone).map Thread.call =
    (s.threads.filter Thread.isDone).map Thread.call
  rw [hset, hl, List.filter_append, List.filter_append,
    List.filter_cons_of_neg (by simp [hafter]), List.filter_cons_of_neg (by simp [hbefore])]

theorem getElem?_set_cases {j : Nat} {g : Thread S A ι ρ σ}
    (h : (s.threads.set i th')[j]? = some g) :
    (j = i ∧ g = th') ∨ (j ≠ i ∧ s.threads[j]? = some g) := by
  rw [List.getElem?_set] at h
  split at h
  next heq =>
    split at h
    · exact Or.inl ⟨heq.symm, (Option.some.inj h).symm⟩
    · cases h
  next hne => exact Or.inr ⟨fun heq => hne heq.symm, h⟩

theorem othersWriting_eq_false (h : s.othersWriting i = false) {j : Nat} {g : Thread S A ι ρ σ}
    (hne : j ≠ i) (hj : s.threads[j]? = some g) : g.isWriting = false := by
  unfold Interleaved.othersWriting at h
  rw [List.any_eq_false] at h
  have hmem : g ∈ s.threads.eraseIdx i := List.mem_eraseIdx_iff_getElem?.mpr ⟨j, hne, hj⟩
  exact Bool.eq_false_iff.mpr (h g hmem)

end Replace

/-! ## The stores between the calls -/

section Visited

variable {start v : σ} {order : List (Call S A ι ρ)}

/-- The sequential run of the order passes through `v` between two calls. -/
def Visited (exec : Exec S A ι σ) (start : σ) (order : List (Call S A ι ρ)) (v : σ) : Prop :=
  ∃ first rest, order = first ++ rest ∧ sequential exec first start = v

theorem visited_start : Visited exec start order start := ⟨[], order, rfl, rfl⟩

theorem visited_end : Visited exec start order (sequential exec order start) :=
  ⟨order, [], (List.append_nil order).symm, rfl⟩

theorem Visited.append (h : Visited exec start order v) (more : List (Call S A ι ρ)) :
    Visited exec start (order ++ more) v := by
  obtain ⟨first, rest, rfl, hv⟩ := h
  exact ⟨first, rest ++ more, List.append_assoc first rest more, hv⟩

/-- A call that would change nothing at a visited store can be put there. -/
theorem Visited.insert {c : Call S A ι ρ} (h : Visited exec start order v)
    (hnoop : c.solo exec v = v) :
    ∃ order', order'.Perm (c :: order) ∧
      sequential exec order' start = sequential exec order start ∧
      ∀ w, Visited exec start order w → Visited exec start order' w := by
  obtain ⟨first, rest, rfl, rfl⟩ := h
  refine ⟨first ++ c :: rest, List.perm_middle, ?_, ?_⟩
  · rw [sequential_append, sequential_append, sequential_cons, hnoop]
  · rintro w ⟨first', rest', heq, rfl⟩
    rcases List.append_eq_append_iff.mp heq with ⟨between, rfl, rfl⟩ | ⟨between, rfl, rfl⟩
    · refine ⟨first ++ c :: between, rest', by simp, ?_⟩
      rw [sequential_append, sequential_append, sequential_cons, hnoop]
    · exact ⟨first', between ++ c :: rest, by simp, rfl⟩

end Visited

/-! ## The order of the calls -/

section Order

variable (access : Access exec κ) (agree : S → σ → σ → Bool) (start : σ)

/-- What a thread that has not written yet knows: its call would be where it is on any store
before it reads, and on the store it read afterwards. -/
def Deciding (order : List (Call S A ι ρ)) (th : Thread S A ι ρ σ) : Prop :=
  match th.seen with
  | none => ∀ v, access.fixed v = access.fixed start →
      access.pause v th.call.program th.call.inputs =
        access.pause v th.rest.program th.rest.inputs
  | some v => access.fixed v = access.fixed start ∧
      access.pause v th.call.program th.call.inputs =
        access.pause v th.rest.program th.rest.inputs ∧
      (th.torn = false → Visited exec start order v)

/-- `order` lists the finished calls; the one in the middle of its writes began them on what the
order left. -/
structure Ordered (s : Interleaved S A ι ρ σ) (order : List (Call S A ι ρ)) : Prop where
  finished : order.Perm s.finished
  fixed : access.fixed s.store = access.fixed start
  idle : (∀ th ∈ s.threads, th.isWriting = false) → s.store = sequential exec order start
  writing : ∀ th ∈ s.threads, th.isWriting = true →
    th.call.solo exec (sequential exec order start) = th.rest.solo exec s.store
  single : ∀ (i j : Nat) (g h : Thread S A ι ρ σ), s.threads[i]? = some g →
    s.threads[j]? = some h → g.isWriting = true → h.isWriting = true → i = j
  deciding : ∀ th ∈ s.threads, th.wrote = false → th.isDone = false → Deciding access start order th
  readsOnce : ∀ th ∈ s.threads, th.wrote = false →
    access.ReadsOnce th.seen.isSome th.rest.program th.rest.inputs
  orderly : ∀ th ∈ s.threads, Orderly access agree th.call

variable {access agree start} {s : Interleaved S A ι ρ σ} {order order' : List (Call S A ι ρ)}
  {i : Nat} {th th' : Thread S A ι ρ σ} {t' : σ}

theorem Deciding.mono (h : Deciding access start order th)
    (hvisited : ∀ v, Visited exec start order v → Visited exec start order' v) :
    Deciding access start order' th := by
  unfold Deciding at h ⊢
  cases hseen : th.seen with
  | none =>
      simp only [hseen] at h
      exact h
  | some v =>
      simp only [hseen] at h
      exact ⟨h.1, h.2.1, fun htorn => hvisited v (h.2.2 htorn)⟩

/-- What has to be shown after the `i`th thread became `th'`. -/
theorem Ordered.replace (h : Ordered access agree start s order) (hi : s.threads[i]? = some th)
    (hcall : th'.call = th.call)
    (hfinished : order'.Perm (Interleaved.mk t' (s.threads.set i th')).finished)
    (hfixed : access.fixed t' = access.fixed start)
    (hvisited : ∀ v, Visited exec start order v → Visited exec start order' v)
    (hidle : th'.isWriting = false →
      (∀ j g, j ≠ i → s.threads[j]? = some g → g.isWriting = false) →
        t' = sequential exec order' start)
    (hwriting : th'.isWriting = true →
      th'.call.solo exec (sequential exec order' start) = th'.rest.solo exec t')
    (hothers : (∀ j g, j ≠ i → s.threads[j]? = some g → g.isWriting = false) ∨
      (th'.isWriting = false ∧ t' = s.store ∧
        sequential exec order' start = sequential exec order start))
    (hdeciding : th'.wrote = false → th'.isDone = false → Deciding access start order' th')
    (hreads : th'.wrote = false →
      access.ReadsOnce th'.seen.isSome th'.rest.program th'.rest.inputs) :
    Ordered access agree start ⟨t', s.threads.set i th'⟩ order' := by
  have hlt : i < s.threads.length := (List.getElem?_eq_some_iff.mp hi).1
  have hself : (s.threads.set i th')[i]? = some th' := List.getElem?_set_self hlt
  have hother : ∀ {j : Nat} {g : Thread S A ι ρ σ}, j ≠ i → s.threads[j]? = some g →
      (s.threads.set i th')[j]? = some g := by
    intro j g hne hj
    rw [List.getElem?_set_ne (fun heq => hne heq.symm)]
    exact hj
  have hcases : ∀ g ∈ s.threads.set i th', g = th' ∨
      ∃ j, j ≠ i ∧ s.threads[j]? = some g := by
    intro g hg
    obtain ⟨j, hj⟩ := List.mem_iff_getElem?.mp hg
    rcases getElem?_set_cases hj with ⟨_, heq⟩ | ⟨hne, hold⟩
    · exact Or.inl heq
    · exact Or.inr ⟨j, hne, hold⟩
  refine ⟨hfinished, hfixed, ?_, ?_, ?_, ?_, ?_, ?_⟩
  · intro hall
    refine hidle (hall th' (List.mem_of_getElem? hself)) ?_
    intro j g hne hj
    exact hall g (List.mem_of_getElem? (hother hne hj))
  · intro g hg hgwriting
    rcases hcases g hg with rfl | ⟨j, hne, hj⟩
    · exact hwriting hgwriting
    · rcases hothers with hnone | ⟨_, hstore, hbase⟩
      · rw [hnone j g hne hj] at hgwriting
        cases hgwriting
      · change g.call.solo exec (sequential exec order' start) = g.rest.solo exec t'
        rw [hstore, hbase]
        exact h.writing g (List.mem_of_getElem? hj) hgwriting
  · intro j k g g' hj hk hg hg'
    rcases getElem?_set_cases hj with ⟨rfl, rfl⟩ | ⟨hjne, hjold⟩
    · rcases getElem?_set_cases hk with ⟨rfl, _⟩ | ⟨hkne, hkold⟩
      · rfl
      · rcases hothers with hnone | ⟨hquiet, _⟩
        · rw [hnone k g' hkne hkold] at hg'
          cases hg'
        · rw [hquiet] at hg
          cases hg
    · rcases getElem?_set_cases hk with ⟨rfl, rfl⟩ | ⟨_, hkold⟩
      · rcases hothers with hnone | ⟨hquiet, _⟩
        · rw [hnone j g hjne hjold] at hg
          cases hg
        · rw [hquiet] at hg'
          cases hg'
      · exact h.single j k g g' hjold hkold hg hg'
  · intro g hg hwrote hdone
    rcases hcases g hg with rfl | ⟨j, _, hj⟩
    · exact hdeciding hwrote hdone
    · exact (h.deciding g (List.mem_of_getElem? hj) hwrote hdone).mono hvisited
  · intro g hg hwrote
    rcases hcases g hg with rfl | ⟨j, _, hj⟩
    · exact hreads hwrote
    · exact h.readsOnce g (List.mem_of_getElem? hj) hwrote
  · intro g hg
    rcases hcases g hg with rfl | ⟨j, _, hj⟩
    · rw [hcall]
      exact h.orderly th (List.mem_of_getElem? hi)
    · exact h.orderly g (List.mem_of_getElem? hj)

section Steps

variable {stmt : S} {rest : A stmt → Program S A ρ}

theorem solo_issue (hrest : th.rest.program = .issue stmt rest) (torn : Bool) (t : σ) :
    (th.after access t torn stmt rest).rest.solo exec (exec stmt (th.rest.inputs 0) t).1 =
      th.rest.solo exec t := by
  unfold Call.solo
  rw [hrest]
  rfl

theorem solo_of_isDone (hdone : th.isDone = true) (t : σ) : th.rest.solo exec t = t := by
  unfold Call.solo
  unfold Thread.isDone at hdone
  cases hprogram : th.rest.program with
  | done result => rfl
  | issue s rest =>
      rw [hprogram] at hdone
      cases hdone

theorem isDone_of_issue (hrest : th.rest.program = .issue stmt rest) : th.isDone = false := by
  unfold Thread.isDone
  rw [hrest]
  rfl

/-- A call that has written goes on alone among the writers, or finishes after all others. -/
theorem Ordered.wrote (h : Ordered access agree start s order) (hi : s.threads[i]? = some th)
    (hdone : th.isDone = false) (hcall : th'.call = th.call) (hwrote : th'.wrote = true)
    (hfixed : access.fixed t' = access.fixed start)
    (hsolo : th.call.solo exec (sequential exec order start) = th'.rest.solo exec t')
    (hothers : ∀ j g, j ≠ i → s.threads[j]? = some g → g.isWriting = false) :
    ∃ order', Ordered access agree start ⟨t', s.threads.set i th'⟩ order' := by
  have hnot : ∀ {P : Prop}, th'.wrote = false → P := by
    intro P hfalse
    rw [hwrote] at hfalse
    cases hfalse
  cases hdone' : th'.isDone with
  | true =>
      have hquiet : th'.isWriting = false := by simp [Thread.isWriting, hdone']
      have hend : sequential exec (order ++ [th.call]) start = t' := by
        rw [sequential_append, sequential_cons, hsolo, solo_of_isDone hdone']
        rfl
      refine ⟨order ++ [th.call], h.replace hi hcall ?_ hfixed (fun v hv => hv.append _)
        (fun _ _ => hend.symm) (fun hwriting => ?_) (Or.inl hothers) hnot hnot⟩
      · have hperm := finished_set_done (t := t') hi hcall hdone hdone'
        exact (List.perm_append_singleton th.call order).trans
          ((h.finished.cons th.call).trans hperm.symm)
      · rw [hquiet] at hwriting
        cases hwriting
  | false =>
      refine ⟨order, h.replace hi hcall ?_ hfixed (fun v hv => hv) (fun hquiet => ?_)
        (fun _ => ?_) (Or.inl hothers) hnot hnot⟩
      · rw [finished_set_going hi hdone hdone']
        exact h.finished
      · simp [Thread.isWriting, hwrote, hdone'] at hquiet
      · rw [hcall, hsolo]

/-- With no other call in the middle of its writes, the store is what the order left. -/
theorem Ordered.store_eq (h : Ordered access agree start s order) (hi : s.threads[i]? = some th)
    (hwrote : th.wrote = false)
    (hothers : ∀ j g, j ≠ i → s.threads[j]? = some g → g.isWriting = false) :
    s.store = sequential exec order start := by
  refine h.idle ?_
  intro g hg
  obtain ⟨j, hj⟩ := List.mem_iff_getElem?.mp hg
  by_cases heq : j = i
  · rw [heq, hi, Option.some.injEq] at hj
    rw [← hj, Thread.isWriting, hwrote]
    rfl
  · exact hothers j g heq hj

/-- The decision of a call goes through a statement that does not write. -/
theorem Ordered.deciding_after (h : Ordered access agree start s order)
    (hi : s.threads[i]? = some th) (hrest : th.rest.program = .issue stmt rest)
    (hwrote : th.wrote = false) (hwrites : access.writes stmt (th.rest.inputs 0) = false) :
    Deciding access start order (th.after access s.store (s.othersWriting i) stmt rest) := by
  have hmem : th ∈ s.threads := List.mem_of_getElem? hi
  have hdeciding := h.deciding th hmem hwrote (isDone_of_issue hrest)
  have hreads := h.readsOnce th hmem hwrote
  rw [hrest] at hreads
  have hpause : ∀ v, access.pause v th.rest.program th.rest.inputs =
      access.pause v (rest (exec stmt (th.rest.inputs 0) v).2) (laterInputs th.rest.inputs) := by
    intro v
    rw [hrest]
    exact access.pause_step hwrites
  unfold Deciding at hdeciding ⊢
  cases hread : access.reads stmt with
  | true =>
      have hnone : th.seen = none := by
        have hsome := hreads.head access hwrites hread
        rwa [Option.isSome_eq_false_iff, Option.isNone_iff_eq_none] at hsome
      simp only [hnone] at hdeciding
      simp only [Thread.after, hread, if_true]
      refine ⟨h.fixed, ?_, fun htorn => ?_⟩
      · rw [hdeciding s.store h.fixed, hpause]
      · rw [h.store_eq hi hwrote (fun j g hne hj => othersWriting_eq_false htorn hne hj)]
        exact visited_end
  | false =>
      have hblind : ∀ v, access.fixed v = access.fixed start →
          access.pause v th.rest.program th.rest.inputs =
            access.pause v (rest (exec stmt (th.rest.inputs 0) s.store).2)
              (laterInputs th.rest.inputs) := by
        intro v hv
        rw [hpause, access.blind stmt (th.rest.inputs 0) v s.store hread hwrites
          (hv.trans h.fixed.symm)]
      simp only [Thread.after, hread, Bool.false_eq_true, if_false]
      cases hseen : th.seen with
      | none =>
          simp only [hseen] at hdeciding
          intro v hv
          rw [hdeciding v hv, hblind v hv]
      | some v =>
          simp only [hseen] at hdeciding
          obtain ⟨hv, hcall, hvisited⟩ := hdeciding
          exact ⟨hv, by rw [hcall, hblind v hv], hvisited⟩

/-- A call that ends without a write changes nothing where it was read. -/
theorem Deciding.noop (h : Deciding access start order th) (hdone : th.isDone = true)
    (htorn : th.torn = false) :
    ∃ v, Visited exec start order v ∧ th.call.solo exec v = v := by
  have hend : ∀ v, access.pause v th.call.program th.call.inputs =
      access.pause v th.rest.program th.rest.inputs → th.call.solo exec v = v := by
    intro v hpause
    calc th.call.solo exec v
        = (access.pause v th.call.program th.call.inputs).solo exec v :=
          (access.solo_pause v th.call.program th.call.inputs).symm
      _ = (access.pause v th.rest.program th.rest.inputs).solo exec v := by rw [hpause]
      _ = th.rest.solo exec v := access.solo_pause v th.rest.program th.rest.inputs
      _ = v := solo_of_isDone hdone v
  unfold Deciding at h
  cases hseen : th.seen with
  | none =>
      simp only [hseen] at h
      exact ⟨start, visited_start, hend start (h start rfl)⟩
  | some v =>
      simp only [hseen] at h
      exact ⟨v, h.2.2 htorn, hend v h.2.1⟩

/-- A statement that does not write, of a call that has not written. -/
theorem Ordered.unwritten (h : Ordered access agree start s order)
    (hi : s.threads[i]? = some th) (hrest : th.rest.program = .issue stmt rest)
    (hwrote : th.wrote = false) (hwrites : access.writes stmt (th.rest.inputs 0) = false)
    (hend : (th.after access s.store (s.othersWriting i) stmt rest).isDone = true →
      (th.after access s.store (s.othersWriting i) stmt rest).torn = false) :
    ∃ order', Ordered access agree start
      ⟨s.store, s.threads.set i (th.after access s.store (s.othersWriting i) stmt rest)⟩ order' := by
  have hmem : th ∈ s.threads := List.mem_of_getElem? hi
  have hdeciding := h.deciding_after hi hrest hwrote hwrites
  have hreads := h.readsOnce th hmem hwrote
  rw [hrest] at hreads
  have hnotdone := isDone_of_issue hrest
  have hreads' := hreads.rest access hwrites s.store
  generalize hth' : th.after access s.store (s.othersWriting i) stmt rest = th' at *
  have hcall : th'.call = th.call := by rw [← hth']; rfl
  have hwrote' : th'.wrote = false := by
    rw [← hth']
    simp [Thread.after, hwrote, hwrites]
  have hquiet : th'.isWriting = false := by simp [Thread.isWriting, hwrote']
  have hnot : ∀ {P : Prop}, th'.isWriting = true → P := by
    intro P htrue
    rw [hquiet] at htrue
    cases htrue
  have hreadsOnce : th'.wrote = false →
      access.ReadsOnce th'.seen.isSome th'.rest.program th'.rest.inputs := by
    intro _
    rw [← hth']
    have hseen : (if access.reads stmt = true then some s.store else th.seen).isSome =
        (th.seen.isSome || access.reads stmt) := by
      cases access.reads stmt <;> simp
    simp only [Thread.after]
    rw [hseen]
    exact hreads'
  have hstill : ∀ order' : List (Call S A ι ρ),
      sequential exec order' start = sequential exec order start → th'.isWriting = false →
        (∀ j g, j ≠ i → s.threads[j]? = some g → g.isWriting = false) →
          s.store = sequential exec order' start := by
    intro order' hbase _ hothers
    rw [hbase]
    exact h.store_eq hi hwrote hothers
  cases hdone' : th'.isDone with
  | true =>
      obtain ⟨v, hvisited, hnoop⟩ := hdeciding.noop hdone' (hend hdone')
      rw [hcall] at hnoop
      obtain ⟨order', hperm, hbase, hmore⟩ := hvisited.insert hnoop
      refine ⟨order', h.replace hi hcall ?_ h.fixed hmore (hstill order' hbase) hnot
        (Or.inr ⟨hquiet, rfl, hbase⟩) (fun _ hgoing => ?_) hreadsOnce⟩
      · have hfinished := finished_set_done (t := s.store) hi hcall hnotdone hdone'
        exact hperm.trans ((h.finished.cons th.call).trans hfinished.symm)
      · rw [hdone'] at hgoing
        cases hgoing
  | false =>
      refine ⟨order, h.replace hi hcall ?_ h.fixed (fun v hv => hv) (hstill order rfl) hnot
        (Or.inr ⟨hquiet, rfl, rfl⟩) (fun _ _ => hdeciding) hreadsOnce⟩
      rw [finished_set_going hi hnotdone hdone']
      exact h.finished

/-- The first write of a call, decided on a store that agrees with the one it finds. -/
theorem Ordered.first_write (h : Ordered access agree start s order)
    (hi : s.threads[i]? = some th) (hrest : th.rest.program = .issue stmt rest)
    (hwrote : th.wrote = false) (hwrites : access.writes stmt (th.rest.inputs 0) = true)
    (hagree : ∀ v, th.seen = some v → agree stmt v s.store = true) :
    th.call.solo exec s.store = th.rest.solo exec s.store := by
  have hmem : th ∈ s.threads := List.mem_of_getElem? hi
  have hdeciding := h.deciding th hmem hwrote (isDone_of_issue hrest)
  have hpause : ∀ v, access.pause v th.rest.program th.rest.inputs =
      ⟨.issue stmt rest, th.rest.inputs⟩ := by
    intro v
    rw [hrest]
    exact access.pause_write hwrites
  have hcall : access.pause s.store th.call.program th.call.inputs =
      ⟨.issue stmt rest, th.rest.inputs⟩ := by
    unfold Deciding at hdeciding
    cases hseen : th.seen with
    | none =>
        simp only [hseen] at hdeciding
        rw [hdeciding s.store h.fixed, hpause]
    | some v =>
        simp only [hseen] at hdeciding
        obtain ⟨hv, hsame, _⟩ := hdeciding
        rw [hpause] at hsame
        exact (h.orderly th hmem).replays v s.store stmt rest _ (hv.trans h.fixed.symm)
          (hagree v hseen) hsame
  calc th.call.solo exec s.store
      = (access.pause s.store th.call.program th.call.inputs).solo exec s.store :=
        (access.solo_pause s.store th.call.program th.call.inputs).symm
    _ = (access.pause s.store th.rest.program th.rest.inputs).solo exec s.store := by
        rw [hcall, hpause]
    _ = th.rest.solo exec s.store := access.solo_pause s.store th.rest.program th.rest.inputs

theorem Ordered.step {next : Interleaved S A ι ρ σ} (h : Ordered access agree start s order)
    (hturn : s.inTurn access agree i = true) (hstep : s.step access i = some next) :
    ∃ order', Ordered access agree start next order' := by
  unfold Interleaved.inTurn at hturn
  unfold Interleaved.step at hstep
  cases hi : s.threads[i]? with
  | none =>
      rw [hi] at hstep
      cases hstep
  | some th =>
      cases hrest : th.rest.program with
      | done result =>
          simp only [hi, hrest] at hstep
          cases hstep
      | issue stmt rest =>
          simp only [hi, hrest, Option.some.injEq] at hstep hturn
          obtain ⟨hwrite, hend⟩ := Bool.and_eq_true_iff.mp hturn
          have hmem : th ∈ s.threads := List.mem_of_getElem? hi
          have hnotdone := isDone_of_issue hrest
          have hfixed : access.fixed (exec stmt (th.rest.inputs 0) s.store).1 =
              access.fixed start := (access.exec_fixed _ _ _).trans h.fixed
          rw [← hstep]
          cases hwrote : th.wrote with
          | true =>
              -- The call is in the middle of its writes, so no other one is.
              have hwriting : th.isWriting = true := by simp [Thread.isWriting, hwrote, hnotdone]
              refine h.wrote hi hnotdone rfl ?_ hfixed ?_ ?_
              · simp [Thread.after, hwrote]
              · rw [solo_issue hrest]
                exact h.writing th hmem hwriting
              · intro j g hne hj
                by_contra hother
                rw [Bool.not_eq_false] at hother
                exact hne (h.single j i g th hj hi hother hwriting)
          | false =>
              cases hwrites : access.writes stmt (th.rest.inputs 0) with
              | true =>
                  simp only [hwrites, hwrote, Bool.not_true, Bool.false_or, Bool.and_eq_true,
                    Bool.not_eq_true'] at hwrite
                  have hothers : ∀ j g, j ≠ i → s.threads[j]? = some g → g.isWriting = false :=
                    fun j g hne hj => othersWriting_eq_false hwrite.1 hne hj
                  refine h.wrote hi hnotdone rfl ?_ hfixed ?_ hothers
                  · simp [Thread.after, hwrites]
                  · rw [solo_issue hrest, ← h.store_eq hi hwrote hothers]
                    refine h.first_write hi hrest hwrote hwrites ?_
                    intro v hseen
                    simpa [hseen] using hwrite.2
              | false =>
                  rw [access.keeps stmt (th.rest.inputs 0) s.store hwrites]
                  refine h.unwritten hi hrest hwrote hwrites ?_
                  intro hdone
                  have hkept : (th.after access s.store (s.othersWriting i) stmt rest).wrote =
                      false := by simp [Thread.after, hwrote, hwrites]
                  rw [hdone, hkept] at hend
                  simpa using hend

end Steps

theorem ordered_start {calls : List (Call S A ι ρ)}
    (hcalls : ∀ c ∈ calls, Orderly access agree c) :
    Ordered access agree start (Interleaved.start calls start) [] := by
  have hthreads : ∀ th ∈ (Interleaved.start calls start : Interleaved S A ι ρ σ).threads,
      ∃ c ∈ calls, th = Thread.start c := by
    intro th hth
    obtain ⟨c, hc, heq⟩ := List.mem_map.mp hth
    exact ⟨c, hc, heq.symm⟩
  have hquiet : ∀ th ∈ (Interleaved.start calls start : Interleaved S A ι ρ σ).threads,
      th.isWriting = false := by
    intro th hth
    obtain ⟨c, _, rfl⟩ := hthreads th hth
    rfl
  refine ⟨?_, rfl, fun _ => rfl, ?_, ?_, ?_, ?_, ?_⟩
  · have hnone : (Interleaved.start calls start : Interleaved S A ι ρ σ).finished = [] := by
      unfold Interleaved.finished
      rw [List.map_eq_nil_iff, List.filter_eq_nil_iff]
      intro th hth
      obtain ⟨c, hc, rfl⟩ := hthreads th hth
      change ¬ c.program.isDone = true
      simp [(hcalls c hc).starts]
    rw [hnone]
  · intro th hth hwriting
    rw [hquiet th hth] at hwriting
    cases hwriting
  · intro i j g g' hi _ hg _
    rw [hquiet g (List.mem_of_getElem? hi)] at hg
    cases hg
  · intro th hth _ _
    obtain ⟨c, _, rfl⟩ := hthreads th hth
    exact fun v _ => rfl
  · intro th hth _
    obtain ⟨c, hc, rfl⟩ := hthreads th hth
    exact (hcalls c hc).readsOnce
  · intro th hth
    obtain ⟨c, hc, rfl⟩ := hthreads th hth
    exact hcalls c hc

/-- Every thread keeps its call. -/
theorem calls_step {next : Interleaved S A ι ρ σ} (hstep : s.step access i = some next) :
    next.threads.map Thread.call = s.threads.map Thread.call := by
  unfold Interleaved.step at hstep
  cases hi : s.threads[i]? with
  | none => simp [hi] at hstep
  | some th =>
      cases hrest : th.rest.program with
      | done result => simp [hi, hrest] at hstep
      | issue stmt rest =>
          simp only [hi, hrest, Option.some.injEq] at hstep
          obtain ⟨before, after, hl, hset⟩ := split_at hi
            (th.after access s.store (s.othersWriting i) stmt rest)
          rw [← hstep]
          change (s.threads.set i _).map Thread.call = _
          rw [hset, hl, List.map_append, List.map_append, List.map_cons, List.map_cons]
          rfl

/-- Calls that are kept apart leave the store as some sequential order of them. -/
theorem serializable {calls : List (Call S A ι ρ)} {actions : List Nat}
    {final : Interleaved S A ι ρ σ} (hcalls : ∀ c ∈ calls, Orderly access agree c)
    (hturns : Transition.Meets (Interleaved.step access)
      (fun s i => s.inTurn access agree i = true) (Interleaved.start calls start) actions)
    (hrun : Transition.run (Interleaved.step access) (Interleaved.start calls start) actions =
      some final)
    (hdone : final.threads.all Thread.isDone = true) :
    ∃ order, order.Perm calls ∧ sequential exec order start = final.store := by
  have hkeep : ∀ (s : Interleaved S A ι ρ σ) (i : Nat) (next : Interleaved S A ι ρ σ),
      (∃ order, Ordered access agree start s order) → s.inTurn access agree i = true →
        s.step access i = some next → ∃ order, Ordered access agree start next order :=
    fun _ _ _ ⟨_, h⟩ hturn hstep => h.step hturn hstep
  have hsame : ∀ (s : Interleaved S A ι ρ σ) (i : Nat) (next : Interleaved S A ι ρ σ),
      s.threads.map Thread.call = calls → s.step access i = some next →
        next.threads.map Thread.call = calls :=
    fun _ _ _ hcalls hstep => (calls_step hstep).trans hcalls
  obtain ⟨order, h⟩ := Transition.run_invariant hkeep ⟨[], ordered_start hcalls⟩ hturns hrun
  have hkept : final.threads.map Thread.call = calls := by
    refine Transition.run_invariant_all hsame ?_ hrun
    simp [Interleaved.start, Thread.start, Function.comp_def]
  have hall : ∀ th ∈ final.threads, th.isDone = true := List.all_eq_true.mp hdone
  refine ⟨order, ?_, (h.idle ?_).symm⟩
  · have hfinished : final.finished = calls := by
      unfold Interleaved.finished
      rw [List.filter_eq_self.mpr hall, hkept]
    exact hfinished ▸ h.finished
  · intro th hth
    simp [Thread.isWriting, hall th hth]

end Order

end Interleaving

end Lightfriend
