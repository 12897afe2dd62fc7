import Mathlib.Tactic

/-! # Programs over a shared store

A program issues statements one at a time and goes on with their answers. What a
statement does depends on the store and on an input of its environment, so a
call is a program with the inputs its statements will meet. Alone, a call takes
the store to the end of its program; a paused call has run up to its first
write, on a store that nobody changed.
-/

namespace Lightfriend

inductive Program (S : Type) (A : S → Type) (ρ : Type) : Type
  | done (result : ρ)
  | issue (s : S) (rest : A s → Program S A ρ)

namespace Program

variable {S : Type} {A : S → Type} {ρ τ : Type}

def bind : Program S A ρ → (ρ → Program S A τ) → Program S A τ
  | done result, f => f result
  | issue s rest, f => issue s (fun answer => (rest answer).bind f)

instance : Monad (Program S A) where
  pure := done
  bind := bind

def perform (s : S) : Program S A (A s) := issue s done

def isDone : Program S A ρ → Bool
  | done _ => true
  | issue _ _ => false

@[simp] theorem pure_eq (result : ρ) : (pure result : Program S A ρ) = done result := rfl

@[simp] theorem done_bind (result : ρ) (f : ρ → Program S A τ) : done result >>= f = f result := rfl

@[simp] theorem issue_bind (s : S) (rest : A s → Program S A ρ) (f : ρ → Program S A τ) :
    issue s rest >>= f = issue s (fun answer => rest answer >>= f) := rfl

@[simp] theorem perform_bind (s : S) (f : A s → Program S A τ) :
    perform s >>= f = issue s f := rfl

end Program

/-- A program and the inputs its statements will meet, in order. -/
structure Call (S : Type) (A : S → Type) (ι ρ : Type) where
  program : Program S A ρ
  inputs : Nat → ι

/-- The inputs left after one statement. -/
def laterInputs {ι : Type} (inputs : Nat → ι) : Nat → ι := fun n => inputs (n + 1)

/-- What a statement does to a store, and how it answers. -/
abbrev Exec (S : Type) (A : S → Type) (ι σ : Type) : Type := (s : S) → ι → σ → σ × A s

section Solo

variable {S : Type} {A : S → Type} {ι σ ρ τ : Type} (exec : Exec S A ι σ)

/-- The store and the result of a program that runs alone. -/
def Program.solo : Program S A ρ → (Nat → ι) → σ → σ × ρ
  | done result, _, t => (t, result)
  | issue s rest, inputs, t =>
      (rest (exec s (inputs 0) t).2).solo (laterInputs inputs) (exec s (inputs 0) t).1

/-- A sequence runs its second part on what the first leaves, with the inputs it leaves. -/
theorem Program.solo_bind (p : Program S A ρ) (f : ρ → Program S A τ) (inputs : Nat → ι) (t : σ) :
    ∃ used, (p >>= f).solo exec inputs t =
      (f (p.solo exec inputs t).2).solo exec (fun n => inputs (n + used))
        (p.solo exec inputs t).1 := by
  induction p generalizing inputs t with
  | done result => exact ⟨0, rfl⟩
  | issue s rest ih =>
      obtain ⟨used, h⟩ := ih (exec s (inputs 0) t).2 (laterInputs inputs) (exec s (inputs 0) t).1
      exact ⟨used + 1, h⟩

/-- What a call that runs alone leaves in the store. -/
def Call.solo (c : Call S A ι ρ) (t : σ) : σ := (c.program.solo exec c.inputs t).1

/-- The calls run one after the other. -/
def sequential (calls : List (Call S A ι ρ)) (t : σ) : σ :=
  calls.foldl (fun t c => c.solo exec t) t

theorem sequential_append (first rest : List (Call S A ι ρ)) (t : σ) :
    sequential exec (first ++ rest) t = sequential exec rest (sequential exec first t) :=
  List.foldl_append

theorem sequential_cons (c : Call S A ι ρ) (rest : List (Call S A ι ρ)) (t : σ) :
    sequential exec (c :: rest) t = sequential exec rest (c.solo exec t) := rfl

end Solo

/-! ## Reads and writes -/

/-- Which statements change the store, and which tell about more than its fixed part. -/
structure Access {S : Type} {A : S → Type} {ι σ : Type} (exec : Exec S A ι σ) (κ : Type) where
  reads : S → Bool
  writes : S → ι → Bool
  fixed : σ → κ
  exec_fixed : ∀ s i t, fixed (exec s i t).1 = fixed t
  keeps : ∀ s i t, writes s i = false → (exec s i t).1 = t
  blind : ∀ s i t t', reads s = false → writes s i = false → fixed t = fixed t' →
    (exec s i t).2 = (exec s i t').2

namespace Access

variable {S : Type} {A : S → Type} {ι σ κ ρ τ : Type} {exec : Exec S A ι σ}
  (access : Access exec κ)

/-- The program at its first write, or at its end, on a store that stays `t`. -/
def pause (t : σ) : Program S A ρ → (Nat → ι) → Call S A ι ρ
  | .done result, inputs => ⟨.done result, inputs⟩
  | .issue s rest, inputs =>
      if access.writes s (inputs 0) then ⟨.issue s rest, inputs⟩
      else pause t (rest (exec s (inputs 0) t).2) (laterInputs inputs)

/-- Up to its first write the program reads the store at most once, or not at all when it has
read it before. -/
def ReadsOnce : Bool → Program S A ρ → (Nat → ι) → Prop
  | _, .done _, _ => True
  | seen, .issue s rest, inputs =>
      access.writes s (inputs 0) = false →
        (access.reads s = true → seen = false) ∧
          ∀ t, ReadsOnce (seen || access.reads s) (rest (exec s (inputs 0) t).2)
            (laterInputs inputs)

@[simp] theorem pause_done (t : σ) (result : ρ) (inputs : Nat → ι) :
    access.pause t (.done result : Program S A ρ) inputs = ⟨.done result, inputs⟩ := rfl

theorem pause_write {t : σ} {s : S} {rest : A s → Program S A ρ} {inputs : Nat → ι}
    (h : access.writes s (inputs 0) = true) :
    access.pause t (.issue s rest) inputs = ⟨.issue s rest, inputs⟩ := by
  rw [pause, if_pos h]

theorem pause_step {t : σ} {s : S} {rest : A s → Program S A ρ} {inputs : Nat → ι}
    (h : access.writes s (inputs 0) = false) :
    access.pause t (.issue s rest) inputs =
      access.pause t (rest (exec s (inputs 0) t).2) (laterInputs inputs) := by
  rw [pause, if_neg (by simp [h])]

/-- Pausing first does not change what the call does alone. -/
theorem solo_pause (t : σ) (p : Program S A ρ) (inputs : Nat → ι) :
    (access.pause t p inputs).solo exec t = (Call.mk p inputs).solo exec t := by
  induction p generalizing inputs with
  | done result => rfl
  | issue s rest ih =>
      cases hwrites : access.writes s (inputs 0) with
      | true => rw [access.pause_write hwrites]
      | false =>
          rw [access.pause_step hwrites, ih]
          change _ = (Program.solo exec _ _ _).1
          rw [Program.solo, access.keeps s (inputs 0) t hwrites]
          rfl

/-- How the pause of a sequence goes on from that of its first part. -/
def resume (t : σ) (f : ρ → Program S A τ) (c : Call S A ι ρ) : Call S A ι τ :=
  match c.program with
  | .done result => access.pause t (f result) c.inputs
  | .issue s rest => ⟨.issue s (fun answer => rest answer >>= f), c.inputs⟩

theorem pause_bind (t : σ) (p : Program S A ρ) (f : ρ → Program S A τ) (inputs : Nat → ι) :
    access.pause t (p >>= f) inputs = access.resume t f (access.pause t p inputs) := by
  induction p generalizing inputs with
  | done result => rfl
  | issue s rest ih =>
      rw [Program.issue_bind]
      cases hwrites : access.writes s (inputs 0) with
      | true =>
          rw [access.pause_write hwrites, access.pause_write hwrites]
          rfl
      | false =>
          rw [access.pause_step hwrites, access.pause_step hwrites]
          exact ih _ _

theorem ReadsOnce.head {seen : Bool} {s : S} {rest : A s → Program S A ρ} {inputs : Nat → ι}
    (h : access.ReadsOnce seen (.issue s rest) inputs)
    (hwrites : access.writes s (inputs 0) = false) (hreads : access.reads s = true) :
    seen = false := (h hwrites).1 hreads

theorem ReadsOnce.rest {seen : Bool} {s : S} {rest : A s → Program S A ρ} {inputs : Nat → ι}
    (h : access.ReadsOnce seen (.issue s rest) inputs)
    (hwrites : access.writes s (inputs 0) = false) (t : σ) :
    access.ReadsOnce (seen || access.reads s) (rest (exec s (inputs 0) t).2)
      (laterInputs inputs) := (h hwrites).2 t

/-- A program that must not read any more may be allowed to. -/
theorem ReadsOnce.weaken {p : Program S A ρ} {inputs : Nat → ι} (seen : Bool)
    (h : access.ReadsOnce true p inputs) : access.ReadsOnce seen p inputs := by
  induction p generalizing seen inputs with
  | done result => trivial
  | issue s rest ih =>
      intro hwrites
      obtain ⟨hreads, hrest⟩ := h hwrites
      have hblind : access.reads s = false := by
        by_contra hread
        rw [Bool.not_eq_false] at hread
        cases hreads hread
      rw [hblind]
      refine ⟨fun hread => (Bool.false_ne_true hread).elim, fun t => ?_⟩
      rw [Bool.or_false]
      exact ih _ _ (hrest t)

theorem ReadsOnce.bind {seen : Bool} {p : Program S A ρ} {f : ρ → Program S A τ}
    {inputs : Nat → ι} (h : access.ReadsOnce seen p inputs)
    (hf : ∀ result inputs, access.ReadsOnce true (f result) inputs) :
    access.ReadsOnce seen (p >>= f) inputs := by
  induction p generalizing seen inputs with
  | done result => exact (hf result inputs).weaken access seen
  | issue s rest ih =>
      rw [Program.issue_bind]
      intro hwrites
      obtain ⟨hreads, hrest⟩ := h hwrites
      exact ⟨hreads, fun t => ih _ (hrest t)⟩

/-- Without a reading, the store does not matter before the first write. -/
theorem pause_blind {p : Program S A ρ} {inputs : Nat → ι} {v t : σ}
    (h : access.ReadsOnce true p inputs) (hfixed : access.fixed v = access.fixed t) :
    access.pause v p inputs = access.pause t p inputs := by
  induction p generalizing inputs with
  | done result => rfl
  | issue s rest ih =>
      cases hwrites : access.writes s (inputs 0) with
      | true => rw [access.pause_write hwrites, access.pause_write hwrites]
      | false =>
          obtain ⟨hreads, hrest⟩ := h hwrites
          have hblind : access.reads s = false := by
            by_contra hread
            rw [Bool.not_eq_false] at hread
            cases hreads hread
          rw [access.pause_step hwrites, access.pause_step hwrites,
            access.blind s (inputs 0) v t hblind hwrites hfixed]
          exact ih _ (hrest t)

end Access

/-! ## Protocols -/

/-- What the issuer of statements knows, what it may issue then, and what it knows afterwards. -/
structure Protocol {S : Type} {A : S → Type} {ι σ : Type} (exec : Exec S A ι σ) (κ : Type) where
  allows : κ → S → Prop
  admits : ι → Prop
  next : κ → S → ι → σ → κ

namespace Protocol

variable {S : Type} {A : S → Type} {ι σ κ ρ τ : Type} {exec : Exec S A ι σ}

/-- Every statement of the program is allowed by what is known, on any store, and what is known
at its end meets `post`. -/
def Obeys (protocol : Protocol exec κ) (post : κ → ρ → Prop) : κ → Program S A ρ → Prop
  | k, .done result => post k result
  | k, .issue s rest => protocol.allows k s ∧
      ∀ i t, protocol.admits i → Obeys protocol post (protocol.next k s i t) (rest (exec s i t).2)

variable {protocol : Protocol exec κ}

theorem Obeys.bind {mid : κ → ρ → Prop} {post : κ → τ → Prop} {k : κ} {p : Program S A ρ}
    {f : ρ → Program S A τ} (hp : protocol.Obeys mid k p)
    (hf : ∀ k result, mid k result → protocol.Obeys post k (f result)) :
    protocol.Obeys post k (p >>= f) := by
  induction p generalizing k with
  | done result => exact hf k result hp
  | issue s rest ih => exact ⟨hp.1, fun i t hi => ih _ (hp.2 i t hi)⟩

theorem Obeys.weaken {post post' : κ → ρ → Prop} (himp : ∀ k result, post k result → post' k result)
    {k : κ} {p : Program S A ρ} (h : protocol.Obeys post k p) : protocol.Obeys post' k p := by
  induction p generalizing k with
  | done result => exact himp k result h
  | issue s rest ih => exact ⟨h.1, fun i t hi => ih _ (h.2 i t hi)⟩

end Protocol

/-! ## Disciplines -/

/-- Which statements a program may issue, by what it issued before, whatever the answers are. -/
structure Discipline (S κ : Type) where
  allows : κ → S → Prop
  next : κ → S → κ

/-- Statements that are always allowed and do not count. -/
def Discipline.Ignores {S κ : Type} (d : Discipline S κ) (p : S → Prop) : Prop :=
  ∀ k s, p s → d.allows k s ∧ d.next k s = k

namespace Program

variable {S : Type} {A : S → Type} {ι κ ρ σ τ : Type}

/-- Every statement of the program meets `p`. -/
def Only (p : S → Prop) : Program S A ρ → Prop
  | done _ => True
  | issue s rest => p s ∧ ∀ answer, (rest answer).Only p

def Follows (d : Discipline S κ) (post : κ → Prop) : κ → Program S A ρ → Prop
  | k, done _ => post k
  | k, issue s rest => d.allows k s ∧ ∀ answer, Follows d post (d.next k s) (rest answer)

section Rules

variable {p p' : S → Prop} {d : Discipline S κ} {exec : Exec S A ι σ}

theorem Only.bind {program : Program S A ρ} {f : ρ → Program S A τ} (h : program.Only p)
    (hf : ∀ result, (f result).Only p) : (program >>= f).Only p := by
  induction program with
  | done result => exact hf result
  | issue s rest ih => exact ⟨h.1, fun answer => ih answer (h.2 answer)⟩

theorem Only.weaken (himp : ∀ s, p s → p' s) {program : Program S A ρ} (h : program.Only p) :
    program.Only p' := by
  induction program with
  | done result => trivial
  | issue s rest ih => exact ⟨himp s h.1, fun answer => ih answer (h.2 answer)⟩

/-- What every statement keeps holds where the program ends that runs alone. -/
theorem Only.solo {inv : σ → Prop} (hkeep : ∀ s i t, p s → inv t → inv (exec s i t).1)
    {program : Program S A ρ} {inputs : Nat → ι} {t : σ} (h : program.Only p) (hinv : inv t) :
    inv (program.solo exec inputs t).1 := by
  induction program generalizing inputs t with
  | done result => exact hinv
  | issue s rest ih =>
      rw [Program.solo]
      exact ih _ (h.2 _) (hkeep s (inputs 0) t h.1 hinv)

theorem Follows.bind {mid post : κ → Prop} {k : κ} {program : Program S A ρ}
    {f : ρ → Program S A τ} (h : program.Follows d mid k)
    (hf : ∀ k result, mid k → (f result).Follows d post k) :
    (program >>= f).Follows d post k := by
  induction program generalizing k with
  | done result => exact hf k result h
  | issue s rest ih => exact ⟨h.1, fun answer => ih answer (h.2 answer)⟩

theorem Follows.weaken {post post' : κ → Prop} (himp : ∀ k, post k → post' k) {k : κ}
    {program : Program S A ρ} (h : program.Follows d post k) : program.Follows d post' k := by
  induction program generalizing k with
  | done result => exact himp k h
  | issue s rest ih => exact ⟨h.1, fun answer => ih answer (h.2 answer)⟩

/-- A program of statements that do not count goes through the discipline. -/
theorem Only.follows (hignores : d.Ignores p) {program : Program S A ρ} (h : program.Only p)
    (k : κ) : program.Follows d (fun k' => k' = k) k := by
  induction program with
  | done result => rfl
  | issue s rest ih =>
      obtain ⟨hallows, hnext⟩ := hignores k s h.1
      refine ⟨hallows, fun answer => ?_⟩
      rw [hnext]
      exact ih answer (h.2 answer)

/-- Such a program may go first. -/
theorem Only.first (hignores : d.Ignores p) {post : κ → Prop} {k : κ} {program : Program S A ρ}
    {f : ρ → Program S A τ} (h : program.Only p) (hf : ∀ result, (f result).Follows d post k) :
    (program >>= f).Follows d post k :=
  (h.follows hignores k).bind (fun _ result hk => hk ▸ hf result)

/-- What the allowed statements keep holds where the program ends that runs alone. -/
theorem Follows.solo {inv : κ → σ → Prop}
    (hkeep : ∀ k s i t, d.allows k s → inv k t → inv (d.next k s) (exec s i t).1)
    {post : κ → Prop} {k : κ} {program : Program S A ρ} {inputs : Nat → ι} {t : σ}
    (h : program.Follows d post k) (hinv : inv k t) :
    ∃ k', inv k' (program.solo exec inputs t).1 := by
  induction program generalizing k inputs t with
  | done result => exact ⟨k, hinv⟩
  | issue s rest ih =>
      rw [Program.solo]
      exact ih _ (h.2 _) (hkeep k s (inputs 0) t h.1 hinv)

end Rules

end Program

/-! ## Programs over a larger set of statements -/

section Embed

variable {S S' : Type} {A : S → Type} {A' : S' → Type} {ι σ σ' κ ρ : Type}

/-- The program with every statement `s` issued as `f s`. -/
def Program.embed (f : S → S') (g : (s : S) → A' (f s) → A s) :
    Program S A ρ → Program S' A' ρ
  | .done result => .done result
  | .issue s rest => .issue (f s) (fun answer => (rest (g s answer)).embed f g)

theorem Program.Only.embed {p : S → Prop} {p' : S' → Prop} {f : S → S'}
    {g : (s : S) → A' (f s) → A s} (himp : ∀ s, p s → p' (f s)) {program : Program S A ρ}
    (h : program.Only p) : (program.embed f g).Only p' := by
  induction program with
  | done result => trivial
  | issue s rest ih => exact ⟨himp s h.1, fun answer => ih _ (h.2 _)⟩

theorem Program.Follows.embed {d : Discipline S κ} {d' : Discipline S' κ} {f : S → S'}
    {g : (s : S) → A' (f s) → A s} (hallows : ∀ k s, d.allows k s → d'.allows k (f s))
    (hnext : ∀ k s, d'.next k (f s) = d.next k s) {post : κ → Prop} {k : κ}
    {program : Program S A ρ} (h : program.Follows d post k) :
    (program.embed f g).Follows d' post k := by
  induction program generalizing k with
  | done result => exact h
  | issue s rest ih =>
      refine ⟨hallows k s h.1, fun answer => ?_⟩
      rw [hnext]
      exact ih _ (h.2 _)

theorem Protocol.Obeys.embed {exec : Exec S A ι σ} {exec' : Exec S' A' ι σ'}
    {protocol : Protocol exec κ} {protocol' : Protocol exec' κ} {f : S → S'}
    {g : (s : S) → A' (f s) → A s} (view : σ' → σ)
    (hallows : ∀ k s, protocol.allows k s → protocol'.allows k (f s))
    (hadmits : ∀ i, protocol'.admits i → protocol.admits i)
    (hnext : ∀ k s i t, protocol'.next k (f s) i t = protocol.next k s i (view t))
    (hanswer : ∀ s i t, g s (exec' (f s) i t).2 = (exec s i (view t)).2) {post : κ → ρ → Prop}
    {k : κ} {p : Program S A ρ} (h : protocol.Obeys post k p) :
    protocol'.Obeys post k (p.embed f g) := by
  induction p generalizing k with
  | done result => exact h
  | issue s rest ih =>
      refine ⟨hallows k s h.1, fun i t hi => ?_⟩
      change protocol'.Obeys post _ ((rest (g s (exec' (f s) i t).2)).embed f g)
      rw [hnext, hanswer]
      exact ih _ (h.2 i (view t) (hadmits i hi))

end Embed

end Lightfriend
