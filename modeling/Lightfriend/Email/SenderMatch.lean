import Lightfriend.Core.Text

/-! # The person behind a sender

The sender of an email is looked up among the persons of the user by the handles
of their email channels. The own addresses of the user are nobody's: neither a
sender nor a handle that is one of them finds a person.
-/

namespace Lightfriend.Email.SenderMatch

/-- Handles are compared as lists of characters. -/
local instance lawfulBEqHandle : LawfulBEq (List Char) := inferInstance

/-! ## The scan -/

/-- `str::to_lowercase`, and what the standard library says of it. -/
structure Letters where
  lower : List Char → List Char
  lower_nil : lower [] = []
  length_le : ∀ s, s.length ≤ (lower s).length
  at_mem : ∀ s, '@' ∈ lower s ↔ '@' ∈ s

structure Channel where
  platform : String
  handle : Option (List Char)
deriving DecidableEq

structure PersonWithChannels where
  id : Int
  channels : List Channel
deriving DecidableEq

section

variable (letters : Letters) (ownEmails : List (List Char))

/-- The body of the loop over the channels, for the lower-cased sender. -/
def channelMatches (fromLower fromNameLower : List Char) (channel : Channel) : Bool :=
  if channel.platform ≠ "email" then false
  else
    match channel.handle with
    | none => false
    | some handle =>
        let handleLower := letters.lower handle
        if handleLower.isEmpty then false
        else if ownEmails.contains handleLower then false
        else
          let handleIsEmail := handleLower.contains '@'
          let emailMatch :=
            if handleIsEmail then !fromLower.isEmpty && fromLower == handleLower else false
          let nameMatch :=
            !handleIsEmail && decide (3 ≤ handleLower.length) && hasInfix handleLower fromNameLower
          emailMatch || nameMatch

def personMatches (fromLower fromNameLower : List Char) (pwc : PersonWithChannels) : Bool :=
  pwc.channels.any (channelMatches letters ownEmails fromLower fromNameLower)

/-- The guard for senders that are the user. -/
def selfSender (fromLower : List Char) : Bool :=
  !fromLower.isEmpty && ownEmails.any (fun own => hasInfix own fromLower)

def matchEmailSenderToPerson (fromEmail fromName : Option (List Char))
    (persons : List PersonWithChannels) : Option Int :=
  let fromLower := letters.lower (fromEmail.getD [])
  let fromNameLower := letters.lower (fromName.getD [])
  if selfSender ownEmails fromLower then none
  else (persons.find? (personMatches letters ownEmails fromLower fromNameLower)).map (·.id)

end

/-! ## The meaning -/

section

variable (letters : Letters) (ownEmails : List (List Char)) (address name : List Char)

/-- A handle that names the sender: its address, or a part of its display name. -/
def Names (handle : List Char) : Prop :=
  ('@' ∈ handle ∧ letters.lower handle = letters.lower address) ∨
    ('@' ∉ handle ∧ 3 ≤ handle.length ∧ letters.lower handle <:+: letters.lower name)

/-- A handle of fewer than three characters that has three in lower case. -/
def Lengthens (handle : List Char) : Prop :=
  '@' ∉ handle ∧ handle.length < 3 ∧ 3 ≤ (letters.lower handle).length ∧
    letters.lower handle <:+: letters.lower name

instance (handle : List Char) : Decidable (Names letters address name handle) := by
  unfold Names
  exact inferInstance

instance (handle : List Char) : Decidable (Lengthens letters name handle) := by
  unfold Lengthens
  exact inferInstance

/-- An email channel of the person has a handle of the kind that is not an own address. -/
def HasHandle (kind : List Char → Prop) (pwc : PersonWithChannels) : Prop :=
  ∃ channel ∈ pwc.channels, channel.platform = "email" ∧
    ∃ handle ∈ channel.handle, letters.lower handle ∉ ownEmails ∧ kind handle

instance (kind : List Char → Prop) [DecidablePred kind] (pwc : PersonWithChannels) :
    Decidable (HasHandle letters ownEmails kind pwc) := by
  unfold HasHandle
  exact inferInstance

/-- The first person that the sender names, unless the sender is the user. -/
def senderPerson (persons : List PersonWithChannels) : Option Int :=
  if letters.lower address ∈ ownEmails then none
  else (persons.find? (fun pwc => HasHandle letters ownEmails (Names letters address name) pwc)).map
    (·.id)

/-- The person is found, by a handle of the right length or by one that lower case lengthens. -/
def Found (pwc : PersonWithChannels) : Prop :=
  HasHandle letters ownEmails (Names letters address name) pwc ∨
    HasHandle letters ownEmails (Lengthens letters name) pwc

instance (pwc : PersonWithChannels) : Decidable (Found letters ownEmails address name pwc) := by
  unfold Found
  exact inferInstance

/-- An own address within the sender's is the sender's, unless it names nobody. An empty own address
is not taken for a sender without address, unless nobody is found. No person that only a lengthened
handle finds stands before the first one that the sender names, if it has another id. -/
def ToldApart (persons : List PersonWithChannels) : Prop :=
  ((∃ own ∈ ownEmails, own <:+: letters.lower address) → address ≠ [] →
    letters.lower address ∉ ownEmails →
    ∀ pwc ∈ persons, ¬ HasHandle letters ownEmails (Names letters address name) pwc) ∧
  (address = [] → [] ∈ ownEmails →
    ∀ pwc ∈ persons, ¬ Found letters ownEmails address name pwc) ∧
  ((∀ own ∈ ownEmails, ¬ own <:+: letters.lower address) ∨ address = [] ∧ [] ∉ ownEmails →
    ∀ front pwc back, persons = front ++ pwc :: back →
      (∀ before ∈ front, ¬ Found letters ownEmails address name before) →
      HasHandle letters ownEmails (Lengthens letters name) pwc →
      ¬ HasHandle letters ownEmails (Names letters address name) pwc →
      ∃ other, back.find? (fun other =>
        HasHandle letters ownEmails (Names letters address name) other) = some other ∧
        other.id = pwc.id)

end

section

variable {letters : Letters} {ownEmails : List (List Char)} {address name : List Char}

theorem lower_eq_nil {s : List Char} : letters.lower s = [] ↔ s = [] := by
  constructor
  · intro h
    have hle := letters.length_le s
    rw [h] at hle
    exact List.length_eq_zero_iff.mp (Nat.le_zero.mp hle)
  · rintro rfl
    exact letters.lower_nil

/-- A handle passes the tests of the scan when it names the sender or is lengthened to. -/
theorem handle_found {handle : List Char} :
    (¬ letters.lower handle = [] ∧
      (('@' ∈ letters.lower handle ∧ ¬ letters.lower address = [] ∧
          letters.lower address = letters.lower handle) ∨
        ('@' ∉ letters.lower handle ∧ 3 ≤ (letters.lower handle).length ∧
          letters.lower handle <:+: letters.lower name))) ↔
      Names letters address name handle ∨ Lengthens letters name handle := by
  have hlength := letters.length_le handle
  unfold Names Lengthens
  rw [letters.at_mem, lower_eq_nil]
  constructor
  · rintro ⟨-, ⟨hmem, -, heq⟩ | ⟨hmem, hthree, hin⟩⟩
    · exact .inl (.inl ⟨hmem, heq.symm⟩)
    · by_cases hshort : handle.length < 3
      · exact .inr ⟨hmem, hshort, hthree, hin⟩
      · exact .inl (.inr ⟨hmem, by omega, hin⟩)
  · rintro ((⟨hmem, heq⟩ | ⟨hmem, hthree, hin⟩) | ⟨hmem, -, hthree, hin⟩)
    · have hne := List.ne_nil_of_mem hmem
      refine ⟨hne, .inl ⟨hmem, ?_, heq.symm⟩⟩
      rw [← heq]
      exact fun h => hne (lower_eq_nil.1 h)
    · exact ⟨fun h => by rw [h] at hthree; simp at hthree, .inr ⟨hmem, by omega, hin⟩⟩
    · exact ⟨fun h => by rw [h, letters.lower_nil] at hthree; simp at hthree,
        .inr ⟨hmem, hthree, hin⟩⟩

theorem personMatches_iff {pwc : PersonWithChannels} :
    personMatches letters ownEmails (letters.lower address) (letters.lower name) pwc = true ↔
      Found letters ownEmails address name pwc := by
  have hchannel : ∀ channel : Channel,
      channelMatches letters ownEmails (letters.lower address) (letters.lower name) channel = true ↔
        channel.platform = "email" ∧ ∃ handle ∈ channel.handle, letters.lower handle ∉ ownEmails ∧
          (Names letters address name handle ∨ Lengthens letters name handle) := by
    intro channel
    unfold channelMatches
    cases hhandle : channel.handle with
    | none => simp
    | some handle =>
        simp only [Option.mem_def, Option.some.injEq, exists_eq_left', ← handle_found,
          ← Text.hasInfix_iff]
        by_cases hplatform : channel.platform = "email"
        · by_cases hempty : letters.lower handle = []
          · simp [hempty]
          · by_cases hown : letters.lower handle ∈ ownEmails
            · simp [hplatform, hown]
            · by_cases hat : '@' ∈ letters.lower handle
              · simp [hplatform, hempty, hown, hat]
              · simp [hplatform, hempty, hown, hat]
        · simp [hplatform]
  unfold personMatches Found HasHandle
  rw [List.any_eq_true]
  simp only [hchannel]
  constructor
  · rintro ⟨channel, hmem, hplatform, handle, hhandle, hown, hnames | hlengthens⟩
    · exact .inl ⟨channel, hmem, hplatform, handle, hhandle, hown, hnames⟩
    · exact .inr ⟨channel, hmem, hplatform, handle, hhandle, hown, hlengthens⟩
  · rintro (⟨channel, hmem, hplatform, handle, hhandle, hown, hkind⟩ |
      ⟨channel, hmem, hplatform, handle, hhandle, hown, hkind⟩)
    · exact ⟨channel, hmem, hplatform, handle, hhandle, hown, .inl hkind⟩
    · exact ⟨channel, hmem, hplatform, handle, hhandle, hown, .inr hkind⟩

theorem selfSender_iff :
    selfSender ownEmails (letters.lower address) = true ↔
      address ≠ [] ∧ ∃ own ∈ ownEmails, own <:+: letters.lower address := by
  unfold selfSender
  rw [Bool.and_eq_true, List.any_eq_true, Bool.not_eq_true', List.isEmpty_eq_false_iff, Ne,
    lower_eq_nil]
  simp only [Text.hasInfix_iff]

end

/-- Two scans find persons of one id exactly where the first person of the wider one that the
narrower one passes has the id of the next that it does not pass. -/
theorem find?_ids_iff {ρ : Type} {id : ρ → Int} {wide narrow : ρ → Bool}
    (hsub : ∀ r, narrow r = true → wide r = true) (rows : List ρ) :
    (rows.find? wide).map id = (rows.find? narrow).map id ↔
      ∀ front r back, rows = front ++ r :: back → (∀ before ∈ front, ¬ wide before = true) →
        wide r = true → ¬ narrow r = true →
        ∃ other, back.find? narrow = some other ∧ id other = id r := by
  induction rows with
  | nil => simp
  | cons row rest ih =>
      by_cases hwide : wide row = true
      · rw [List.find?_cons_of_pos hwide]
        by_cases hnarrow : narrow row = true
        · rw [List.find?_cons_of_pos hnarrow]
          refine iff_of_true rfl fun front r back hrows hfront hr hnot => ?_
          cases front with
          | nil =>
              obtain ⟨rfl, -⟩ := List.cons.inj hrows
              exact absurd hnarrow hnot
          | cons before front =>
              obtain ⟨rfl, -⟩ := List.cons.inj hrows
              exact absurd hwide (hfront _ List.mem_cons_self)
        · rw [List.find?_cons_of_neg hnarrow, Option.map_some, eq_comm, Option.map_eq_some_iff]
          constructor
          · intro hother front r back hrows hfront hr hnot
            cases front with
            | nil =>
                obtain ⟨rfl, rfl⟩ := List.cons.inj hrows
                exact hother
            | cons before front =>
                obtain ⟨rfl, -⟩ := List.cons.inj hrows
                exact absurd hwide (hfront _ List.mem_cons_self)
          · intro h
            exact h [] row rest rfl (by simp) hwide hnarrow
      · have hnarrow : ¬ narrow row = true := fun h => hwide (hsub row h)
        rw [List.find?_cons_of_neg hwide, List.find?_cons_of_neg hnarrow, ih]
        constructor
        · intro h front r back hrows hfront hr hnot
          cases front with
          | nil =>
              obtain ⟨rfl, -⟩ := List.cons.inj hrows
              exact absurd hr hwide
          | cons before front =>
              obtain ⟨rfl, hrest⟩ := List.cons.inj hrows
              exact h front r back hrest
                (fun b hb => hfront b (List.mem_cons_of_mem _ hb)) hr hnot
        · intro h front r back hrows hfront hr hnot
          refine h (row :: front) r back (by rw [hrows, List.cons_append]) ?_ hr hnot
          rintro before (hbefore | hbefore)
          · exact hwide
          · exact hfront before (by assumption)

/-- The person behind the sender is found exactly where own addresses and lengthened handles are
told apart from it. -/
theorem matchEmailSenderToPerson_exact_iff (letters : Letters) (ownEmails : List (List Char))
    (fromEmail fromName : Option (List Char)) (persons : List PersonWithChannels) :
    matchEmailSenderToPerson letters ownEmails fromEmail fromName persons =
        senderPerson letters ownEmails (fromEmail.getD []) (fromName.getD []) persons ↔
      ToldApart letters ownEmails (fromEmail.getD []) (fromName.getD []) persons := by
  generalize hname : fromName.getD [] = name
  generalize haddress : fromEmail.getD [] = address
  unfold matchEmailSenderToPerson senderPerson ToldApart
  rw [hname, haddress]
  dsimp only
  have hfound : ∀ pwc, personMatches letters ownEmails (letters.lower address)
      (letters.lower name) pwc = true ↔ Found letters ownEmails address name pwc :=
    fun _ => personMatches_iff
  have hnil : letters.lower address = [] ↔ address = [] := lower_eq_nil
  by_cases hown : letters.lower address ∈ ownEmails
  · rw [if_pos hown]
    by_cases hempty : address = []
    · have hself : ¬ selfSender ownEmails (letters.lower address) = true := by
        rw [selfSender_iff]
        exact fun h => h.1 hempty
      rw [hnil.mpr hempty] at hown
      rw [if_neg hself, Option.map_eq_none_iff, List.find?_eq_none]
      simp only [hfound]
      constructor
      · intro h
        refine ⟨fun _ hne => absurd hempty hne, fun _ _ => h, ?_⟩
        rintro (hno | ⟨-, hno⟩)
        · exact absurd List.nil_infix (hno _ hown)
        · exact absurd hown hno
      · exact fun h => h.2.1 hempty hown
    · have hself : selfSender ownEmails (letters.lower address) = true :=
        selfSender_iff.2 ⟨hempty, _, hown, List.infix_refl _⟩
      rw [if_pos hself]
      refine iff_of_true rfl ⟨fun _ _ hnot => absurd hown hnot, fun h => absurd h hempty, ?_⟩
      rintro (hno | ⟨hnil', -⟩)
      · exact absurd (List.infix_refl _) (hno _ hown)
      · exact absurd hnil' hempty
  · rw [if_neg hown]
    by_cases hself : selfSender ownEmails (letters.lower address) = true
    · obtain ⟨hne, own, hmem, hin⟩ := selfSender_iff.1 hself
      rw [if_pos hself, eq_comm, Option.map_eq_none_iff, List.find?_eq_none]
      simp only [decide_eq_true_eq]
      constructor
      · intro h
        refine ⟨fun _ _ _ => h, fun h' => absurd h' hne, ?_⟩
        rintro (hno | ⟨hnil', -⟩)
        · exact absurd hin (hno _ hmem)
        · exact absurd hnil' hne
      · exact fun h => h.1 ⟨own, hmem, hin⟩ hne hown
    · rw [if_neg hself, find?_ids_iff (fun pwc h => (hfound pwc).mpr (.inl (of_decide_eq_true h)))]
      rw [selfSender_iff, not_and] at hself
      have hfree : (∀ own ∈ ownEmails, ¬ own <:+: letters.lower address) ∨
          address = [] ∧ [] ∉ ownEmails := by
        by_cases hempty : address = []
        · rw [hnil.mpr hempty] at hown
          exact .inr ⟨hempty, hown⟩
        · exact .inl fun own hmem hin => hself hempty ⟨own, hmem, hin⟩
      have hkind : ∀ pwc, (Found letters ownEmails address name pwc ∧
          ¬ HasHandle letters ownEmails (Names letters address name) pwc) ↔
          (HasHandle letters ownEmails (Lengthens letters name) pwc ∧
            ¬ HasHandle letters ownEmails (Names letters address name) pwc) := by
        intro pwc
        unfold Found
        tauto
      simp only [hfound, decide_eq_true_eq]
      constructor
      · intro h
        refine ⟨fun hex hne _ => absurd hex (hself hne), fun hempty hmem => ?_,
          fun _ front pwc back hrows hfront hlengthens hnot =>
            h front pwc back hrows hfront (.inr hlengthens) hnot⟩
        rw [hnil.mpr hempty] at hown
        exact absurd hmem hown
      · intro h front pwc back hrows hfront hpwc hnot
        exact h.2.2 hfree front pwc back hrows hfront ((hkind pwc).mp ⟨hpwc, hnot⟩).1 hnot

/-! ## A stranger -/

/-- The lower case of ASCII. -/
def asciiLetters : Letters where
  lower s := s.map Char.toLower
  lower_nil := rfl
  length_le s := by rw [List.length_map]
  at_mem s := by
    rw [List.mem_map]
    constructor
    · rintro ⟨c, hmem, hc⟩
      have heq : c = '@' := by
        unfold Char.toLower at hc
        split at hc
        next hupper =>
          exfalso
          have hval := congrArg Char.val hc
          have hnat := congrArg UInt32.toNat hval
          simp at hnat hupper
          have h1 := UInt32.le_iff_toNat_le.mp hupper.1
          have h2 := UInt32.le_iff_toNat_le.mp hupper.2
          simp at h1 h2
          omega
        next => exact hc
      exact heq ▸ hmem
    · exact fun hmem => ⟨'@', hmem, rfl⟩

def annContact : PersonWithChannels := ⟨1, [⟨"email", some "joann@x.com".toList⟩]⟩

/-- A contact whose address ends in the own one is taken for the user. -/
theorem matchEmailSenderToPerson_stranger :
    matchEmailSenderToPerson asciiLetters ["ann@x.com".toList] (some "joann@x.com".toList) none
        [annContact] = none ∧
      senderPerson asciiLetters ["ann@x.com".toList] "joann@x.com".toList [] [annContact] =
        some 1 := by
  decide +kernel

end Lightfriend.Email.SenderMatch
