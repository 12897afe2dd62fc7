import Mathlib.Data.Finset.Card
import Mathlib.Data.String.Basic
import Lightfriend.Core.Sort
import Lightfriend.Proactive.UrgentAlert

/-! # When two alerts count as one

Two alerts are compared by the sets of their terms: how many they share, and whether
they share one with a digit. What a set of terms keeps of the numbers of an alert
decides whether different incidents are told apart.
-/

namespace Lightfriend.Proactive.UrgentAlert

/-! ## Sets of terms -/

section Sets

variable {α : Type} [DecidableEq α]

/-- The same two terms or more, or at least three in common that are enough of either set. -/
def Alike (a b : Finset α) : Prop :=
  a = b ∧ 2 ≤ a.card ∨
    3 ≤ (a ∩ b).card ∧ 65 * min a.card b.card ≤ 100 * (a ∩ b).card ∧
      45 * (a ∪ b).card ≤ 100 * (a ∩ b).card

/-- Both sets have a detail, and none in common. -/
def ToldApart (detail : α → Prop) (a b : Finset α) : Prop :=
  (∃ t ∈ a, detail t) ∧ (∃ t ∈ b, detail t) ∧ ∀ t ∈ a, t ∈ b → ¬ detail t

variable {detail : α → Prop} {a b : Finset α}

theorem Alike.symm (h : Alike a b) : Alike b a := by
  rcases h with ⟨rfl, h⟩ | ⟨hshared, hsmaller, hunion⟩
  · exact .inl ⟨rfl, h⟩
  · refine .inr ⟨?_, ?_, ?_⟩
    · rwa [Finset.inter_comm]
    · rwa [Finset.inter_comm, min_comm]
    · rwa [Finset.inter_comm, Finset.union_comm]

omit [DecidableEq α] in
theorem ToldApart.symm (h : ToldApart detail a b) : ToldApart detail b a :=
  ⟨h.2.1, h.1, fun t hb ha => h.2.2 t ha hb⟩

theorem alike_self : Alike a a ↔ 2 ≤ a.card := by
  unfold Alike
  rw [Finset.inter_self]
  constructor
  · rintro (⟨-, h⟩ | ⟨h, -⟩)
    · exact h
    · omega
  · intro h
    exact .inl ⟨rfl, h⟩

theorem not_alike_empty_left : ¬ Alike ∅ b := by
  rintro (⟨-, h⟩ | ⟨h, -⟩)
  · simp at h
  · simp at h

omit [DecidableEq α] in
theorem not_toldApart_self : ¬ ToldApart detail a a := by
  rintro ⟨⟨t, ht, hdetail⟩, -, hnone⟩
  exact hnone t ht ht hdetail

theorem length_filter_mem {l r : List α} (hl : l.Nodup) :
    (l.filter (fun t => t ∈ r)).length = (l.toFinset ∩ r.toFinset).card := by
  have hset : (l.filter (fun t => t ∈ r)).toFinset = l.toFinset ∩ r.toFinset := by
    ext t
    simp
  rw [← hset, List.toFinset_card_of_nodup (hl.filter _)]

end Sets

/-! ## Texts of words -/

theorem splitOnP_intercalate {words : List (List Char)}
    (h : ∀ word ∈ words, ∀ c ∈ word, isWhitespace c = false) (hne : words ≠ []) :
    (List.intercalate [' '] words).splitOnP isWhitespace = words := by
  induction words with
  | nil => exact absurd rfl hne
  | cons word rest ih =>
      have hword : ∀ c ∈ word, isWhitespace c = false := h word List.mem_cons_self
      cases rest with
      | nil =>
          rw [List.intercalate_singleton]
          exact List.splitOnP_eq_singleton hword
      | cons next rest =>
          have hrest := ih (fun w hw => h w (List.mem_cons_of_mem _ hw)) (by simp)
          rw [List.intercalate_cons_cons, List.append_assoc, List.singleton_append,
            List.splitOnP_append_cons_of_forall_mem hword _ (by decide), hrest]

/-- Words without blanks, joined by one blank each, are read back. -/
theorem splitWhitespace_intercalate {words : List String}
    (hblank : ∀ word ∈ words, ∀ c ∈ word.toList, isWhitespace c = false)
    (hne : ∀ word ∈ words, word ≠ "") :
    splitWhitespace (" ".intercalate words).toList = words := by
  have hspace : " ".toList = [' '] := rfl
  unfold splitWhitespace
  rw [String.toList_intercalate, hspace]
  cases words with
  | nil => decide
  | cons word rest =>
      rw [splitOnP_intercalate]
      · have hall : ((word :: rest).map String.toList).filter (fun w => !w.isEmpty) =
            (word :: rest).map String.toList := by
          rw [List.filter_eq_self]
          intro w hw
          obtain ⟨s, hs, rfl⟩ := List.mem_map.mp hw
          have hs' := hne s hs
          simpa using hs'
        rw [hall, List.map_map]
        simp
      · intro w hw
        obtain ⟨s, hs, rfl⟩ := List.mem_map.mp hw
        exact hblank s hs
      · simp

theorem forall_mem_splitOnPPrepend {p : Char → Bool} {text : List Char} :
    ∀ acc : List Char, (∀ c ∈ acc, p c = false) →
      ∀ w ∈ List.splitOnPPrepend p text acc, ∀ c ∈ w, p c = false := by
  induction text with
  | nil =>
      intro acc hacc w hw c hc
      rw [List.splitOnPPrepend_nil, List.mem_singleton] at hw
      rw [hw, List.mem_reverse] at hc
      exact hacc c hc
  | cons x rest ih =>
      intro acc hacc w hw c hc
      rw [List.splitOnPPrepend_cons_eq_if] at hw
      split at hw
      · rcases List.mem_cons.mp hw with rfl | hw
        · exact hacc c (List.mem_reverse.mp hc)
        · exact ih [] (by simp) w hw c hc
      · rename_i hx
        refine ih (x :: acc) ?_ w hw c hc
        intro d hd
        rcases List.mem_cons.mp hd with rfl | hd
        · simpa using hx
        · exact hacc d hd

/-- A part holds none of the characters that the text is cut at. -/
theorem forall_mem_splitOnP {p : Char → Bool} {text w : List Char} (hw : w ∈ text.splitOnP p) :
    ∀ c ∈ w, p c = false :=
  forall_mem_splitOnPPrepend [] (by simp) w hw

/-! ## The terms of an alert -/

/-- In lower case a word has no blank. -/
def Alphabet.Spaceless (alphabet : Alphabet) : Prop :=
  ∀ word : String, (∀ c ∈ word.toList, alphabet.isAlphanumeric c = true) →
    ∀ c ∈ (alphabet.lower word).toList, isWhitespace c = false

/-- What an alert says, without what the sender of the notification adds. -/
def messagePart (alert : String) : List Char := withoutSender (semanticPart alert)

def foundTerms (alphabet : Alphabet) (alert : String) : List String :=
  (((messagePart alert).splitOnP (fun c => !alphabet.isAlphanumeric c)).filter
    (fun w => !w.isEmpty)).filterMap (fun w => canonicalTerm alphabet (String.ofList w))

def terms (alphabet : Alphabet) (alert : String) : Finset String :=
  (foundTerms alphabet alert).toFinset

/-- The terms in the order of the fingerprint. -/
def sortedTerms (alphabet : Alphabet) (alert : String) : List String :=
  orderBy (· ≤ ·) (foundTerms alphabet alert).dedup

variable {alphabet : Alphabet} {left right : String}

theorem alertEventFingerprint_eq (alert : String) :
    alertEventFingerprint alphabet alert = " ".intercalate (sortedTerms alphabet alert) := by
  unfold alertEventFingerprint sortedTerms foundTerms messagePart
  rfl

theorem withoutMeridiem_subset (term : String) :
    ∀ c ∈ (withoutMeridiem term).toList, c ∈ term.toList := by
  intro c hc
  unfold withoutMeridiem at hc
  dsimp only at hc
  split at hc
  · rw [String.toList_ofList] at hc
    exact List.mem_of_mem_take hc
  · exact hc

theorem canonicalTerm_blank (h : alphabet.Spaceless) {word term : String}
    (hword : ∀ c ∈ word.toList, alphabet.isAlphanumeric c = true)
    (hterm : canonicalTerm alphabet word = some term) :
    term ≠ "" ∧ ∀ c ∈ term.toList, isWhitespace c = false := by
  have hlower : (withoutMeridiem (alphabet.lower word)).toList.all
      (fun c => !isWhitespace c) = true := by
    rw [List.all_eq_true]
    intro c hc
    rw [h word hword c (withoutMeridiem_subset _ c hc)]
    rfl
  unfold canonicalTerm at hterm
  extract_lets canonical at hterm
  have hblank : canonical.toList.all (fun c => !isWhitespace c) = true := by
    unfold canonical
    split
    all_goals first
      | decide
      | exact hlower
  split_ifs at hterm with hshort
  have heq : canonical = term := Option.some.inj hterm
  rw [← heq]
  constructor
  · intro hempty
    rw [hempty] at hshort
    exact hshort (by decide)
  · intro c hc
    simpa using List.all_eq_true.mp hblank c hc

theorem mem_sortedTerms {alert term : String} :
    term ∈ sortedTerms alphabet alert ↔ term ∈ foundTerms alphabet alert := by
  rw [sortedTerms, (perm_orderBy _).mem_iff, List.mem_dedup]

theorem nodup_sortedTerms (alert : String) : (sortedTerms alphabet alert).Nodup :=
  (perm_orderBy _).nodup_iff.mpr (List.nodup_dedup _)

theorem toFinset_sortedTerms (alert : String) :
    (sortedTerms alphabet alert).toFinset = terms alphabet alert := by
  ext term
  rw [List.mem_toFinset, mem_sortedTerms, terms, List.mem_toFinset]

/-- The words of the fingerprint are the terms. -/
theorem splitWhitespace_fingerprint (h : alphabet.Spaceless) (alert : String) :
    splitWhitespace (alertEventFingerprint alphabet alert).toList =
      sortedTerms alphabet alert := by
  have hterms : ∀ term ∈ sortedTerms alphabet alert,
      term ≠ "" ∧ ∀ c ∈ term.toList, isWhitespace c = false := by
    intro term hterm
    obtain ⟨w, hw, hcanonical⟩ := List.mem_filterMap.mp (mem_sortedTerms.1 hterm)
    refine canonicalTerm_blank h ?_ hcanonical
    intro c hc
    rw [String.toList_ofList] at hc
    simpa using forall_mem_splitOnP (List.mem_filter.mp hw).1 c hc
  rw [alertEventFingerprint_eq]
  exact splitWhitespace_intercalate (fun term hterm => (hterms term hterm).2)
    (fun term hterm => (hterms term hterm).1)

theorem fingerprint_eq_iff (h : alphabet.Spaceless) :
    alertEventFingerprint alphabet left = alertEventFingerprint alphabet right ↔
      terms alphabet left = terms alphabet right := by
  constructor
  · intro heq
    rw [← toFinset_sortedTerms, ← toFinset_sortedTerms, ← splitWhitespace_fingerprint h,
      ← splitWhitespace_fingerprint h, heq]
  · intro heq
    have hperm : (foundTerms alphabet left).dedup.Perm (foundTerms alphabet right).dedup :=
      List.toFinset_eq_iff_perm_dedup.mp heq
    have hsorted : ∀ alert, (sortedTerms alphabet alert).Pairwise (· ≤ ·) := fun alert =>
      pairwise_orderBy le_total (fun _ _ _ => le_trans) _
    have hsame : sortedTerms alphabet left = sortedTerms alphabet right :=
      ((perm_orderBy _).trans (hperm.trans (perm_orderBy _).symm)).eq_of_pairwise'
        (hsorted left) (hsorted right)
    rw [alertEventFingerprint_eq, alertEventFingerprint_eq, hsame]

theorem fingerprint_eq_empty_iff (h : alphabet.Spaceless) (alert : String) :
    alertEventFingerprint alphabet alert = "" ↔ terms alphabet alert = ∅ := by
  rw [← toFinset_sortedTerms, List.toFinset_eq_empty_iff, ← splitWhitespace_fingerprint h]
  constructor
  · intro hempty
    rw [hempty]
    decide
  · intro hnil
    rw [splitWhitespace_fingerprint h] at hnil
    rw [alertEventFingerprint_eq, hnil, String.intercalate_nil]

/-- What is compared when the fingerprints differ. -/
theorem comparison_iff {l r : List String} (hl : l.Nodup) (hr : r.Nodup)
    (hne : l.toFinset ≠ r.toFinset) :
    (if (l.filter (fun t => t ∈ r)).length < 3 then false
      else if l.filter hasDigit ≠ [] ∧ r.filter hasDigit ≠ [] ∧
        ∀ t ∈ l.filter hasDigit, t ∉ r.filter hasDigit then false
      else decide (65 * min l.length r.length ≤ 100 * (l.filter (fun t => t ∈ r)).length ∧
        45 * (l.length + r.length - (l.filter (fun t => t ∈ r)).length) ≤
          100 * (l.filter (fun t => t ∈ r)).length)) = true ↔
      Alike l.toFinset r.toFinset ∧
        ¬ ToldApart (fun term => hasDigit term = true) l.toFinset r.toFinset := by
  have hdetails : (l.filter hasDigit ≠ [] ∧ r.filter hasDigit ≠ [] ∧
      ∀ t ∈ l.filter hasDigit, t ∉ r.filter hasDigit) ↔
      ToldApart (fun term => hasDigit term = true) l.toFinset r.toFinset := by
    have hsome : ∀ words : List String,
        words.filter hasDigit ≠ [] ↔ ∃ t ∈ words.toFinset, hasDigit t = true := by
      intro words
      constructor
      · intro hne
        obtain ⟨t, ht⟩ := List.exists_mem_of_ne_nil _ hne
        obtain ⟨hin, hdigit⟩ := List.mem_filter.mp ht
        exact ⟨t, List.mem_toFinset.mpr hin, hdigit⟩
      · rintro ⟨t, hin, hdigit⟩
        exact List.ne_nil_of_mem (List.mem_filter.mpr ⟨List.mem_toFinset.mp hin, hdigit⟩)
    rw [hsome, hsome]
    unfold ToldApart
    simp only [List.mem_filter, List.mem_toFinset]
    grind
  have hunion := Finset.card_union l.toFinset r.toFinset
  have hlength := List.toFinset_card_of_nodup hl
  have hlength' := List.toFinset_card_of_nodup hr
  rw [length_filter_mem hl]
  unfold Alike
  rw [hunion, hlength, hlength']
  split_ifs with hfew htold <;> rw [hdetails] at *
  · constructor
    · intro hfalse
      exact hfalse.elim
    · rintro ⟨⟨heq, -⟩ | ⟨hshared, -⟩, -⟩
      · exact absurd heq hne
      · omega
  · simp [htold]
  · rw [decide_eq_true_iff]
    constructor
    · intro hratios
      exact ⟨.inr ⟨by omega, hratios⟩, htold⟩
    · rintro ⟨⟨heq, -⟩ | ⟨-, hratios⟩, -⟩
      · exact absurd heq hne
      · exact hratios

/-- The check on the fingerprints is a relation of the sets of terms. -/
theorem alertsSubstantiallyEquivalent_iff (h : alphabet.Spaceless) :
    alertsSubstantiallyEquivalent alphabet left right = true ↔
      Alike (terms alphabet left) (terms alphabet right) ∧
        ¬ ToldApart (fun term => hasDigit term = true) (terms alphabet left)
          (terms alphabet right) := by
  unfold alertsSubstantiallyEquivalent
  dsimp only
  rw [splitWhitespace_fingerprint h, splitWhitespace_fingerprint h,
    (nodup_sortedTerms left).dedup, (nodup_sortedTerms right).dedup]
  simp only [fingerprint_eq_empty_iff h, fingerprint_eq_iff h]
  by_cases hempty : terms alphabet left = ∅ ∨ terms alphabet right = ∅
  · rw [if_pos hempty]
    constructor
    · intro hfalse
      exact absurd hfalse Bool.false_ne_true
    · rintro ⟨halike, -⟩
      rcases hempty with hleft | hright
      · rw [hleft] at halike
        exact absurd halike not_alike_empty_left
      · rw [hright] at halike
        exact absurd halike.symm not_alike_empty_left
  · rw [if_neg hempty]
    by_cases hsame : terms alphabet left = terms alphabet right
    · have hcard : (terms alphabet left).card = (sortedTerms alphabet left).length := by
        rw [← toFinset_sortedTerms, List.toFinset_card_of_nodup (nodup_sortedTerms left)]
      rw [if_pos hsame, decide_eq_true_iff, ← hsame, alike_self, hcard]
      exact ⟨fun hcount => ⟨hcount, not_toldApart_self⟩, fun hcount => hcount.1⟩
    · rw [if_neg hsame]
      rw [← toFinset_sortedTerms, ← toFinset_sortedTerms] at hsame ⊢
      exact comparison_iff (nodup_sortedTerms left) (nodup_sortedTerms right) hsame

theorem alertsSubstantiallyEquivalent_comm (h : alphabet.Spaceless) (left right : String) :
    alertsSubstantiallyEquivalent alphabet left right =
      alertsSubstantiallyEquivalent alphabet right left := by
  rw [Bool.eq_iff_iff, alertsSubstantiallyEquivalent_iff h, alertsSubstantiallyEquivalent_iff h]
  constructor
  · rintro ⟨halike, hnot⟩
    exact ⟨halike.symm, fun htold => hnot htold.symm⟩
  · rintro ⟨halike, hnot⟩
    exact ⟨halike.symm, fun htold => hnot htold.symm⟩

/-! ## Different incidents -/

/-- The longest runs of digits. -/
def numbers (text : List Char) : List (List Char) :=
  (text.splitOnP (fun c => !c.isDigit)).filter (fun run => !run.isEmpty)

/-- Has each message part a number that does not occur in the other? -/
def DifferentIncidents (left right : String) : Prop :=
  (∃ n ∈ numbers (messagePart left), n ∉ numbers (messagePart right)) ∧
    ∃ n ∈ numbers (messagePart right), n ∉ numbers (messagePart left)

instance (left right : String) : Decidable (DifferentIncidents left right) :=
  inferInstanceAs (Decidable (_ ∧ _))

theorem spaceless_ascii : ascii.Spaceless := by
  have hall : ∀ n < 128, (Char.ofNat n).isAlphanum = true →
      isWhitespace (Char.ofNat n).toLower = false := by decide
  intro word hword c hc
  have hlower : (ascii.lower word).toList = word.toList.map Char.toLower := String.toList_ofList
  rw [hlower] at hc
  obtain ⟨d, hd, rfl⟩ := List.mem_map.mp hc
  have halphanum : d.isAlphanum = true := hword d hd
  have hranges : d.isAlphanum = (((decide (65 ≤ d.val ∧ d.val ≤ 90)) ||
      (decide (97 ≤ d.val) && decide (d.val ≤ 122))) ||
        (decide (48 ≤ d.val) && decide (d.val ≤ 57))) := rfl
  have hsmall : d.toNat < 128 := by
    rw [hranges] at halphanum
    simp only [Bool.or_eq_true, Bool.and_eq_true, decide_eq_true_eq, UInt32.le_iff_toNat_le,
      UInt32.reduceToNat] at halphanum
    have hval : d.val.toNat = d.toNat := rfl
    omega
  have hd' : Char.ofNat d.toNat = d := Char.ofNat_toNat d
  rw [← hd']
  exact hall d.toNat hsmall (by rw [hd']; exact halphanum)

def flight34 : String := "Flight 34 gate 12"

def flight35 : String := "Flight 35 gate 12"

theorem differentIncidents_flights : DifferentIncidents flight34 flight35 := by
  decide +kernel

theorem equivalent_flights : alertsSubstantiallyEquivalent ascii flight34 flight35 = true := by
  decide +kernel

end Lightfriend.Proactive.UrgentAlert
