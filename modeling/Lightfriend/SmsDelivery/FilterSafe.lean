import Lightfriend.SmsDelivery.UrlFilter

/-! # What the link filter promises

The filter ends, changes nothing but brackets and links, and a filtered text is
not changed again. A link that it keeps is a link to a trusted host only as long
as a browser finds the host where the filter does.
-/

namespace Lightfriend.SmsDelivery

open Text

/-! ## No bracket comes back -/

section Fangs

variable {words : WordChars} {fang : Fang}

/-- The tokens have no brackets and start with no `l`. -/
structure Fang.Plain (fang : Fang) : Prop where
  opening : ∀ token ∈ fang.tokens, '[' ∉ token
  closing : ∀ token ∈ fang.tokens, ']' ∉ token
  head : ∀ token ∈ fang.tokens, token.head? ≠ some 'l'

theorem isWord_of_not_urlChar {c : Char} (h : isUrlChar c = false) : words.isWord c = false := by
  simp only [isUrlChar, Bool.and_eq_false_iff, Bool.not_eq_false'] at h
  obtain hblank | hdelimiter := h
  · exact words.blank c hblank
  · refine words.punctuation c ?_
    have hall : ∀ d ∈ urlDelimiters, d ∈ "[]().@,;!?:<>\"'\x7d".toList :=
      List.all_iff_forall_prop.mp (by decide)
    exact hall c (List.contains_iff_mem.mp hdelimiter)

theorem isWord_of_isTrailing {c : Char} (h : isTrailing c = true) : words.isWord c = false := by
  refine words.punctuation c ?_
  have hall : ∀ d ∈ ".,;!?:".toList, d ∈ "[]().@,;!?:<>\"'\x7d".toList :=
      List.all_iff_forall_prop.mp (by decide)
  exact hall c (List.contains_iff_mem.mp h)

theorem not_isClosing_of_urlChar {c : Char} (h : isUrlChar c = true) : isClosing c = false := by
  cases hclosing : isClosing c with
  | false => rfl
  | true =>
      simp only [isClosing, decide_eq_true_eq] at hclosing
      obtain rfl | rfl := hclosing
      · revert h
        decide
      · revert h
        decide

theorem IsLink.not_closing {m : List Char} (h : IsLink m) : ∀ c ∈ m, isClosing c = false := by
  obtain ⟨scheme, body, hkind, rfl, -, hbody⟩ := h.parts
  obtain ⟨-, -, -, -, hscheme⟩ := scheme_facts hkind
  intro c hc
  obtain hc | hc := List.mem_append.mp hc
  · exact hscheme c hc
  · exact not_isClosing_of_urlChar (hbody c hc)

/-- A closing bracket is followed by a word character. -/
theorem IsFanged.after_closing {w w₁ w₂ : List Char} (hplain : fang.Plain)
    (h : IsFanged words fang w) (hw : w = w₁ ++ ']' :: w₂) :
    ∃ last, w₂ = [last] ∧ words.isWord last = true := by
  obtain ⟨first, opening, token, close, last, rfl, hfirst, hopening, htoken, hclose, hlast⟩ :=
    h.parts
  have hword : words.isWord ']' = false := words.punctuation _ (by decide)
  have hcut : first :: opening :: (token ++ [close, last]) =
      (first :: opening :: token) ++ close :: [last] := by simp
  rw [hcut] at hw
  refine ⟨last, ((List.append_cons_inj_of_notMem ?_ ?_).mp hw).2.2.symm, hlast⟩
  · intro hmem
    simp only [List.mem_cons] at hmem
    obtain rfl | rfl | hin := hmem
    · rw [hword] at hfirst
      cases hfirst
    · revert hopening
      decide
    · have hlower := @List.mem_map_of_mem _ _ _ _ Char.toLower hin
      exact hplain.closing _ htoken hlower
  · intro hmem
    obtain rfl := List.mem_singleton.mp hmem
    rw [hword] at hlast
    cases hlast

/-- After an opening bracket comes the token. -/
theorem IsFanged.after_opening {w w₁ w₂ : List Char} (hplain : fang.Plain)
    (h : IsFanged words fang w) (hw : w = w₁ ++ '[' :: w₂) :
    ∃ c rest, w₂ = c :: rest ∧ c ≠ 'l' := by
  obtain ⟨first, opening, token, close, last, rfl, hfirst, hopening, htoken, hclose, hlast⟩ :=
    h.parts
  have hword : words.isWord '[' = false := words.punctuation _ (by decide)
  have hcut : first :: opening :: (token ++ [close, last]) =
      [first] ++ opening :: (token ++ [close, last]) := rfl
  rw [hcut] at hw
  have hrest : w₂ = token ++ [close, last] := by
    refine ((List.append_cons_inj_of_notMem ?_ ?_).mp hw).2.2.symm
    · intro hmem
      obtain rfl := List.mem_singleton.mp hmem
      rw [hword] at hfirst
      cases hfirst
    · intro hmem
      simp only [List.mem_append, List.mem_cons, List.not_mem_nil, or_false] at hmem
      obtain hin | rfl | rfl := hmem
      · have hlower := @List.mem_map_of_mem _ _ _ _ Char.toLower hin
        exact hplain.opening _ htoken hlower
      · revert hclose
        decide
      · rw [hword] at hlast
        cases hlast
  cases token with
  | nil =>
      refine ⟨close, [last], hrest, ?_⟩
      rintro rfl
      revert hclose
      decide
  | cons c token =>
      refine ⟨c, token ++ [close, last], hrest, ?_⟩
      rintro rfl
      exact hplain.head _ htoken rfl

theorem IsFanged.mem_closing {w : List Char} (h : IsFanged words fang w) :
    ∃ c ∈ w, isClosing c = true := by
  obtain ⟨first, opening, token, close, last, rfl, -, -, -, hclose, -⟩ := h.parts
  exact ⟨close, by simp, hclose⟩

/-- A placeholder makes no fanged word. -/
theorem FangFree.link (hplain : fang.Plain) {a b : List Char}
    (hstep : urlPattern.Step replaceLink a b) (hfree : FangFree words fang a) :
    FangFree words fang b := by
  obtain @⟨before, text, hfind⟩ := hstep
  obtain ⟨m, rest, rfl, -, hlink, hrest, htake, hdrop⟩ := found_spec hfind
  have hfound : urlPattern.find (m ++ rest) = findUrl (m ++ rest) := rfl
  rw [hfound, htake, hdrop]
  by_cases hkept : Kept m
  · rwa [replaceLink_kept hkept]
  · obtain ⟨inside, trailing, hbracketed⟩ := replaceLink_bracketed hkept
    rw [hbracketed.eq]
    intro w hfanged hwithin
    have hsplit : before ++ ((['[', 'l', 'i', 'n', 'k'] ++ inside ++ ']' :: trailing) ++ rest) =
        (before ++ '[' :: (['l', 'i', 'n', 'k'] ++ inside)) ++ ']' :: (trailing ++ rest) := by
      simp
    rw [hsplit] at hwithin
    obtain hleft | hright | ⟨w₁, w₂, hw, -, hstarts⟩ := infix_append_cons hwithin
    · obtain hbefore | hinside | ⟨w₁, w₂, hw, -, hstarts⟩ := infix_append_cons hleft
      · exact hfree w hfanged (List.infix_append_of_infix_left hbefore)
      · obtain ⟨c, hc, hclosing⟩ := hfanged.mem_closing
        obtain hletter | hin := List.mem_append.mp (hinside.subset hc)
        · have hall : ∀ d ∈ ['l', 'i', 'n', 'k'], isClosing d = false :=
            List.all_iff_forall_prop.mp (by decide)
          rw [hall c hletter] at hclosing
          cases hclosing
        · obtain rfl | rfl | ⟨hmem, -⟩ := hbracketed.mem_inside c hin
          · revert hclosing
            decide
          · revert hclosing
            decide
          · rw [hlink.not_closing c hmem] at hclosing
            cases hclosing
      · obtain ⟨c, w₂, rfl, hletter⟩ := hfanged.after_opening hplain hw
        obtain ⟨tail, htail⟩ := hstarts
        obtain ⟨rfl, -⟩ := List.cons.inj htail
        exact hletter rfl
    · refine hfree w hfanged (hright.trans ?_)
      obtain ⟨front, hfront⟩ := hbracketed.suffix
      refine ⟨before ++ front, [], ?_⟩
      rw [List.append_nil, List.append_assoc, ← List.append_assoc front, hfront]
    · obtain ⟨last, rfl, hlast⟩ := hfanged.after_closing hplain hw
      obtain ⟨tail, htail⟩ := hstarts
      have hnot : words.isWord last = false := by
        cases trailing with
        | nil =>
            have hhead := congrArg List.head? htail
            exact isWord_of_not_urlChar (hrest last hhead.symm)
        | cons x trailing =>
            obtain ⟨rfl, -⟩ := List.cons.inj htail
            exact isWord_of_isTrailing (hbracketed.mem_trailing _ List.mem_cons_self)
      rw [hnot] at hlast
      cases hlast

theorem unfangText_filtered (text : List Char) :
    unfangText words (applySmsUrlFilter words text) = applySmsUrlFilter words text := by
  obtain ⟨hdot, hword, hat⟩ := @unfangText_free words text
  have hkeeps : ∀ {fang : Fang}, fang.Plain → FangFree words fang (unfangText words text) →
      FangFree words fang (applySmsUrlFilter words text) := by
    intro fang hplain hfree
    exact (Pattern.steps_replaceAll [] (unfangText words text)).keeps
      (fun _ _ => FangFree.link hplain) hfree
  exact unfangText_of_free (hkeeps ⟨by decide, by decide, by decide⟩ hdot)
    (hkeeps ⟨by decide, by decide, by decide⟩ hword)
    (hkeeps ⟨by decide, by decide, by decide⟩ hat)

/-- A filtered text is not changed again. -/
theorem applySmsUrlFilter_twice (text : List Char) :
    applySmsUrlFilter words (applySmsUrlFilter words text) = applySmsUrlFilter words text := by
  conv_lhs => rw [applySmsUrlFilter, unfangText_filtered]
  exact applyUrlFilterOnly_twice _

end Fangs

/-! ## What is changed -/

/-- Brackets between two word characters have been taken out, one after the other. -/
inductive Refanged (words : WordChars) : List Char → List Char → Prop
  | refl (text : List Char) : Refanged words text text
  | take {text : List Char} (before : List Char) (first opening : Char) (token : List Char)
      (close last mark : Char) (rest : List Char)
      (h : Refanged words text (before ++ first :: opening :: (token ++ close :: last :: rest)))
      (hwords : words.isWord first = true ∧ words.isWord last = true)
      (hbrackets : isOpening opening = true ∧ isClosing close = true)
      (htoken : (mark = '.' ∧ token.map Char.toLower ∈ [".".toList, "dot".toList]) ∨
        (mark = '@' ∧ token.map Char.toLower ∈ ["at".toList, "@".toList])) :
      Refanged words text (before ++ first :: mark :: last :: rest)

section Changes

variable {words : WordChars}

theorem Refanged.trans {a b c : List Char} (hab : Refanged words a b) (hbc : Refanged words b c) :
    Refanged words a c := by
  induction hbc with
  | refl => exact hab
  | take before first opening token close last mark rest _ hwords hbrackets htoken ih =>
      exact .take before first opening token close last mark rest ih hwords hbrackets htoken

theorem refanged_steps {fang : Fang}
    (htokens : ∀ token ∈ fang.tokens, (fang.mark = '.' ∧ token ∈ [".".toList, "dot".toList]) ∨
      (fang.mark = '@' ∧ token ∈ ["at".toList, "@".toList]))
    {a b : List Char} (h : (fang.pattern words).Steps fang.refang a b) : Refanged words a b := by
  induction h with
  | refl => exact .refl _
  | tail _ hstep ih =>
      obtain @⟨before, text, hfind⟩ := hstep
      obtain ⟨first, opening, token, close, last, rest, htext, hfirst, hopening, htoken, hclose,
        hlast, hdrop, hrefang⟩ := fang.refang_eq hfind
      have hfound : (fang.pattern words).find text = fang.find words text := rfl
      rw [hfound, hdrop, hrefang]
      refine .take before first opening token close last fang.mark rest ?_ ⟨hfirst, hlast⟩
        ⟨hopening, hclose⟩ (htokens _ htoken)
      rw [htext] at ih
      simpa using ih

/-- The text is cut into characters and links, and only the links are replaced. -/
structure LinksReplaced (text filtered : List Char) : Prop where
  pieces : ∃ pieces : List Piece, text = pieces.flatMap Piece.text ∧
    filtered = pieces.flatMap (Piece.render replaceLink) ∧
      ∀ m, Piece.found m ∈ pieces → IsLink m

theorem linksReplaced (text : List Char) : LinksReplaced text (applyUrlFilterOnly text) := by
  refine ⟨urlPattern.scan text, (urlPattern.scan_text text).symm, rfl, ?_⟩
  induction text using urlPattern.scan_induction with
  | nil => simp
  | plain c rest hfind ih =>
      intro m hm
      rw [urlPattern.scan_plain hfind] at hm
      obtain heq | hm := List.mem_cons.mp hm
      · cases heq
      · exact ih m hm
  | found text hfind ih =>
      obtain ⟨m', rest, rfl, -, hlink, -, htake, -⟩ := found_spec hfind
      intro m hm
      rw [urlPattern.scan_found hfind] at hm
      obtain heq | hm := List.mem_cons.mp hm
      · have hfound : urlPattern.find (m' ++ rest) = findUrl (m' ++ rest) := rfl
        rw [hfound, htake] at heq
        cases heq
        exact hlink
      · exact ih m hm

/-- Only brackets and links are changed. -/
def ChangesOnlyLinks (words : WordChars) (text filtered : List Char) : Prop :=
  ∃ mid, Refanged words text mid ∧ LinksReplaced mid filtered

theorem changesOnlyLinks (text : List Char) :
    ChangesOnlyLinks words text (applySmsUrlFilter words text) := by
  refine ⟨unfangText words text, ?_, linksReplaced _⟩
  have hdot : Refanged words text (dotFang.untilStable words text) :=
    refanged_steps (by decide) (dotFang.steps_untilStable text)
  have hword := refanged_steps (by decide)
    (@Fang.steps_untilStable words wordDotFang (dotFang.untilStable words text))
  have hat := refanged_steps (by decide) (@Fang.steps_untilStable words atFang
    (wordDotFang.untilStable words (dotFang.untilStable words text)))
  exact (hdot.trans hword).trans hat

end Changes

/-! ## The host of a kept link -/

/-- The host that a browser finds: slashes after the scheme are skipped, a backslash is a slash,
the user and the port are stripped. -/
def browserHost (link : List Char) : List Char :=
  hostOf (((afterScheme link).dropWhile (fun c => c = '/' || c = '\\')).takeWhile
    (fun c => !(isPathStart c || c = '\\')))

/-- The host of a link is a trusted domain, or a subdomain of one. -/
def HostTrusted (link : List Char) : Prop := isTrusted (browserHost link) = true

/-- The authority that the filter finds. -/
def authorityOf (link : List Char) : List Char :=
  (afterScheme (splitTrailingPunctuation link).1).takeWhile (fun c => !isPathStart c)

/-- Something stands between the host and the punctuation after the link: a path or a port. Or
the punctuation ends the host itself. -/
def HostEnds (link : List Char) : Prop :=
  authorityOf link ≠ afterScheme (splitTrailingPunctuation link).1 ∨
    ':' ∈ afterLast '@' (authorityOf link) ∨
      ∀ c ∈ (splitTrailingPunctuation link).2.head?, c = '?' ∨ c = ':'

section Hosts

variable {m : List Char}

/-- The link without its punctuation has the scheme too. -/
theorem splitTrailing_link (h : IsLink m) : ∃ scheme body,
    (scheme = httpScheme ∨ scheme = httpsScheme) ∧
      (splitTrailingPunctuation m).1 = scheme ++ body ∧
        m = scheme ++ (body ++ (splitTrailingPunctuation m).2) := by
  obtain ⟨scheme, body, hkind, rfl, -, -⟩ := h.parts
  have hsame := splitTrailing_append (scheme ++ body)
  obtain ⟨mid, hscheme, hrest⟩ | ⟨mid, hurl, hbody⟩ := List.append_eq_append_iff.mp hsame
  · -- The scheme ends with a slash, which is no punctuation.
    have hnil : mid = [] := by
      by_contra hne
      have hlast : mid.getLast hne = '/' := by
        have hscheme' : scheme.getLast? = some '/' := by
          obtain rfl | rfl := hkind <;> rfl
        rw [hscheme, List.getLast?_append_of_ne_nil _ hne, List.getLast?_eq_some_getLast hne]
          at hscheme'
        exact Option.some.inj hscheme'
      have hin : '/' ∈ (splitTrailingPunctuation (scheme ++ body)).2 := by
        rw [hrest]
        exact List.mem_append_left _ (hlast ▸ List.getLast_mem hne)
      have htrailing := mem_splitTrailing hin
      revert htrailing
      decide
    subst hnil
    rw [List.append_nil] at hscheme
    rw [List.nil_append] at hrest
    refine ⟨scheme, [], hkind, ?_, ?_⟩
    · rw [List.append_nil]
      exact hscheme.symm
    · rw [List.nil_append, hrest]
  · exact ⟨scheme, mid, hkind, hurl, by rw [← hbody]⟩

theorem afterScheme_scheme {scheme : List Char} (h : scheme = httpScheme ∨ scheme = httpsScheme)
    (body : List Char) : afterScheme (scheme ++ body) = body := by
  obtain rfl | rfl := h
  · simp [httpScheme, afterScheme, afterSeparator]
  · simp [httpsScheme, afterScheme, afterSeparator]

theorem takeWhile_append_of_mem {a b : List Char} {c : Char} (h : c ∈ a) :
    (a ++ b).takeWhile (· ≠ c) = a.takeWhile (· ≠ c) := by
  induction a with
  | nil => cases h
  | cons d a ih =>
      rw [List.cons_append, List.takeWhile_cons, List.takeWhile_cons]
      split
      next hd =>
        have hne : c ≠ d := fun heq => of_decide_eq_true hd heq.symm
        rw [ih ((List.mem_cons.mp h).resolve_left hne)]
      next => rfl

theorem afterLast_append {c : Char} {a b : List Char} (h : c ∉ b) :
    afterLast c (a ++ b) = afterLast c a ++ b := by
  unfold afterLast
  rw [List.reverse_append, List.takeWhile_append_of_pos, List.reverse_append, List.reverse_reverse]
  intro d hd
  simp only [decide_eq_true_eq]
  rintro rfl
  exact h (List.mem_reverse.mp hd)

/-- A host that ends with punctuation is no trusted domain. -/
theorem not_isTrusted_punctuation {host : List Char} {c : Char} (h : host.getLast? = some c)
    (hc : isTrailing c = true) : isTrusted host = false := by
  have hlast : (lowercased host).getLast? = some c.toLower := by
    rw [lowercased, List.getLast?_map, h]
    rfl
  have hpunctuation : ∀ c ∈ ".,;!?:".toList, c.toLower ≠ 'i' ∧ c.toLower ≠ 'p' :=
    List.all_iff_forall_prop.mp (by decide)
  obtain ⟨hi, hp⟩ := hpunctuation c (List.contains_iff_mem.mp hc)
  have hends : ∀ t ∈ trustedDomains,
      t.toList.getLast? = some 'i' ∨ t.toList.getLast? = some 'p' := by decide
  rw [isTrusted, List.any_eq_false]
  intro t ht htrusted
  rw [Bool.or_eq_true, beq_iff_eq] at htrusted
  have hsame : (lowercased host).getLast? = t.toList.getLast? := by
    obtain heq | hsub := htrusted
    · rw [heq]
    · obtain ⟨front, hfront⟩ := List.isSuffixOf_iff_suffix.mp hsub
      have hne : t.toList ≠ [] := by
        intro hnil
        have hend := hends t ht
        rw [hnil] at hend
        obtain hend | hend := hend <;> cases hend
      have hcut : front ++ '.' :: t.toList = (front ++ ['.']) ++ t.toList := by simp
      rw [← hfront, hcut, List.getLast?_append_of_ne_nil _ hne]
  rw [hlast] at hsame
  obtain hend | hend := hends t ht
  · rw [hend] at hsame
    exact hi (Option.some.inj hsame)
  · rw [hend] at hsame
    exact hp (Option.some.inj hsame)

theorem domainOf_eq (m : List Char) : domainOf m = hostOf (authorityOf m) := by
  unfold domainOf extractDomain authorityOf
  split
  next hnil => rw [hnil]; rfl
  next => rfl

/-- An authority without a backslash has nothing that ends it for a browser. -/
theorem mem_authorityOf {c : Char} (hslash : '\\' ∉ authorityOf m) (hc : c ∈ authorityOf m) :
    (!(isPathStart c || c = '\\')) = true := by
  have hpath : isPathStart c = false := by simpa using List.mem_takeWhile_imp hc
  have hback : c ≠ '\\' := fun heq => hslash (heq ▸ hc)
  simp [hpath, hback]

/-- No slashes stand before the authority. -/
theorem dropWhile_authorityOf (hslash : '\\' ∉ authorityOf m) (hne : authorityOf m ≠ [])
    (rest : List Char) :
    (authorityOf m ++ rest).dropWhile (fun c => c = '/' || c = '\\') = authorityOf m ++ rest := by
  obtain ⟨c, authority, hcons⟩ := List.exists_cons_of_ne_nil hne
  have hplain := mem_authorityOf hslash (hcons ▸ List.mem_cons_self)
  have hstop : (decide (c = '/') || decide (c = '\\')) = false := by
    simp only [Bool.not_eq_true', Bool.or_eq_false_iff, isPathStart, decide_eq_false_iff_not,
      not_or] at hplain
    simp [hplain.1.1, hplain.2]
  rw [hcons, List.cons_append, List.dropWhile_cons, hstop]
  rfl

/-- What a browser reads of a link whose authority has no backslash: the authority, and the
punctuation after the link when nothing else stands between. -/
theorem browserHost_eq (hlink : IsLink m) (hslash : '\\' ∉ authorityOf m)
    (hne : authorityOf m ≠ []) :
    browserHost m = hostOf (authorityOf m ++
      if authorityOf m = afterScheme (splitTrailingPunctuation m).1 then
        (splitTrailingPunctuation m).2.takeWhile (fun c => !(isPathStart c || c = '\\'))
      else []) := by
  obtain ⟨scheme, body, hkind, hurl, hm⟩ := splitTrailing_link hlink
  have hbody : afterScheme (splitTrailingPunctuation m).1 = body := by
    rw [hurl, afterScheme_scheme hkind]
  have hauthority : authorityOf m = body.takeWhile (fun c => !isPathStart c) := by
    rw [authorityOf, hbody]
  have hcut : authorityOf m ++ body.dropWhile (fun c => !isPathStart c) = body := by
    rw [hauthority, List.takeWhile_append_dropWhile]
  have hafter : afterScheme m = authorityOf m ++
      (body.dropWhile (fun c => !isPathStart c) ++ (splitTrailingPunctuation m).2) := by
    conv_lhs => rw [hm, afterScheme_scheme hkind]
    rw [← List.append_assoc, hcut]
  unfold browserHost
  rw [hafter, dropWhile_authorityOf hslash hne,
    List.takeWhile_append_of_pos (fun c hc => mem_authorityOf hslash hc), hbody]
  split
  next hsame =>
    rw [hsame] at hcut
    rw [List.append_right_eq_self.mp hcut, List.nil_append]
  next hdiffers =>
    cases hrest : body.dropWhile (fun c => !isPathStart c) with
    | nil =>
        rw [hrest, List.append_nil] at hcut
        exact absurd hcut hdiffers
    | cons c rest =>
        have hhead := List.head?_dropWhile_not (fun c => !isPathStart c) body
        rw [hrest] at hhead
        have hstop : isPathStart c = true := by simpa using hhead
        rw [List.cons_append, List.takeWhile_cons, hstop]
        rfl

theorem stops_at {c : Char} (h : isTrailing c = true)
    (hstop : ¬ (!(isPathStart c || c = '\\')) = true) : c = '?' := by
  have hall : ∀ d ∈ ".,;!?:".toList, (!(isPathStart d || d = '\\')) = true ∨ d = '?' :=
    List.all_iff_forall_prop.mp (by decide)
  exact (hall c (List.contains_iff_mem.mp h)).resolve_left hstop

/-- The punctuation behind a bare host that a browser reads as part of it. -/
def hostPunctuation (m : List Char) : List Char :=
  ((splitTrailingPunctuation m).2.takeWhile (fun c => !(isPathStart c || c = '\\'))).takeWhile
    (· ≠ ':')

theorem mem_hostPunctuation {c : Char} (h : c ∈ hostPunctuation m) : isTrailing c = true :=
  mem_splitTrailing ((List.takeWhile_prefix _).subset ((List.takeWhile_prefix _).subset h))

theorem hostPunctuation_eq_nil_iff :
    hostPunctuation m = [] ↔ ∀ c ∈ (splitTrailingPunctuation m).2.head?, c = '?' ∨ c = ':' := by
  unfold hostPunctuation
  cases hrest : (splitTrailingPunctuation m).2 with
  | nil => simp
  | cons c rest =>
      have htrailing : isTrailing c = true := mem_splitTrailing (hrest ▸ List.mem_cons_self)
      rw [List.takeWhile_cons]
      split
      next hgoes =>
        rw [List.takeWhile_cons]
        split
        next hcolon =>
          refine iff_of_false (List.cons_ne_nil _ _) (fun hhead => ?_)
          obtain rfl | rfl := hhead c rfl
          · exact absurd hgoes (by decide)
          · exact absurd hcolon (by decide)
        next hcolon =>
          refine iff_of_true rfl (fun d hd => ?_)
          cases hd
          exact .inr (by simpa using hcolon)
      next hstop =>
        refine iff_of_true rfl (fun d hd => ?_)
        cases hd
        exact .inl (stops_at htrailing hstop)

/-- The host that a browser reads of a bare authority: a port ends it, and punctuation goes on
with it. -/
theorem hostOf_punctuation {authority q : List Char} (hq : '@' ∉ q) :
    hostOf (authority ++ q) =
      if ':' ∈ afterLast '@' authority then hostOf authority
      else hostOf authority ++ q.takeWhile (· ≠ ':') := by
  rw [hostOf, hostOf, afterLast_append hq]
  split
  next hport => exact takeWhile_append_of_mem hport
  next hport =>
    have hall : ∀ c ∈ afterLast '@' authority, decide (c ≠ ':') = true :=
      fun c hc => decide_eq_true (fun heq => hport (heq ▸ hc))
    rw [List.takeWhile_append_of_pos hall, List.takeWhile_eq_self_iff.mpr hall]

theorem isTrusted_punctuation_iff {host : List Char} (h : isTrusted host = true) :
    isTrusted (host ++ hostPunctuation m) = true ↔ hostPunctuation m = [] := by
  constructor
  · intro htrusted
    by_contra hne
    have hlast := List.getLast?_eq_some_getLast hne
    have hfalse := @not_isTrusted_punctuation (host ++ hostPunctuation m) _
      (by rw [List.getLast?_append_of_ne_nil _ hne, hlast])
      (mem_hostPunctuation (List.getLast_mem hne))
    rw [hfalse] at htrusted
    cases htrusted
  · intro hnil
    rw [hnil, List.append_nil]
    exact h

/-- Without a backslash a browser finds the host of the filter, unless punctuation follows it
directly. -/
theorem hostTrusted_iff (hlink : IsLink m) (hkept : Kept m) (hslash : '\\' ∉ authorityOf m) :
    HostTrusted m ↔ HostEnds m := by
  have htrusted : isTrusted (hostOf (authorityOf m)) = true := by
    rw [← domainOf_eq]
    exact hkept
  have hne : authorityOf m ≠ [] := by
    intro hnil
    rw [hnil] at htrusted
    revert htrusted
    decide
  unfold HostTrusted HostEnds
  rw [browserHost_eq hlink hslash hne]
  split
  next hbare =>
    have hat : '@' ∉ (splitTrailingPunctuation m).2.takeWhile
        (fun c => !(isPathStart c || c = '\\')) := by
      intro hin
      have htrailing := mem_splitTrailing ((List.takeWhile_prefix _).subset hin)
      revert htrailing
      decide
    rw [hostOf_punctuation hat]
    split
    next hport => exact iff_of_true htrusted (.inr (.inl hport))
    next hport =>
      refine (isTrusted_punctuation_iff htrusted).trans (hostPunctuation_eq_nil_iff.trans ?_)
      constructor
      · exact fun hhead => .inr (.inr hhead)
      · rintro (hpath | hcolon | hhead)
        · exact absurd hbare hpath
        · exact absurd hcolon hport
        · exact hhead
  next hpath =>
    rw [List.append_nil]
    exact iff_of_true htrusted (.inl hpath)

end Hosts

/-- What is expected of the filter for a message. -/
structure FiltersSafely (words : WordChars) (text : List Char) : Prop where
  twice : applySmsUrlFilter words (applySmsUrlFilter words text) = applySmsUrlFilter words text
  only : ChangesOnlyLinks words text (applySmsUrlFilter words text)
  hosts : ∀ link ∈ urlPattern.matchesIn (applySmsUrlFilter words text), HostTrusted link

/-- The links of the message that the filter trusts name the same host to a browser: they have no
backslash before their path, or one that a trusted host precedes, and their host ends before the
punctuation after them. -/
def HostsAgree (words : WordChars) (text : List Char) : Prop :=
  ∀ link ∈ urlPattern.matchesIn (unfangText words text), Kept link →
    if '\\' ∈ authorityOf link then HostTrusted link else HostEnds link

theorem mem_matchesIn {text link : List Char} (h : link ∈ urlPattern.matchesIn text) :
    IsLink link := by
  induction text using urlPattern.scan_induction with
  | nil =>
      rw [Pattern.matchesIn_nil] at h
      cases h
  | plain c rest hfind ih =>
      rw [urlPattern.matchesIn_plain hfind] at h
      exact ih h
  | found text hfind ih =>
      obtain ⟨m, rest, rfl, -, hlink, -, htake, -⟩ := found_spec hfind
      have hfound : urlPattern.find (m ++ rest) = findUrl (m ++ rest) := rfl
      rw [urlPattern.matchesIn_found hfind, hfound, htake] at h
      obtain rfl | h := List.mem_cons.mp h
      · exact hlink
      · exact ih h

theorem hostsAgree_iff (words : WordChars) (text : List Char) : HostsAgree words text ↔
    ∀ link ∈ urlPattern.matchesIn (unfangText words text), Kept link → HostTrusted link := by
  refine forall_congr' fun link => forall_congr' fun hmem => forall_congr' fun hkept => ?_
  split
  next => exact Iff.rfl
  next hslash => exact (hostTrusted_iff (mem_matchesIn hmem) hkept hslash).symm

/-- The filter ends, changes only brackets and links and changes nothing twice; what it keeps is
trusted exactly where the hosts of the links agree. -/
theorem applySmsUrlFilter_safe_iff (words : WordChars) (text : List Char) :
    FiltersSafely words text ↔ HostsAgree words text := by
  have hlinks : urlPattern.matchesIn (applySmsUrlFilter words text) =
      (urlPattern.matchesIn (unfangText words text)).filter (fun m => decide (Kept m)) :=
    matchesIn_applyUrlFilterOnly _
  rw [hostsAgree_iff]
  constructor
  · intro hsafe link hlink hkept
    refine hsafe.hosts link ?_
    rw [hlinks, List.mem_filter]
    exact ⟨hlink, decide_eq_true hkept⟩
  · intro hagree
    refine ⟨applySmsUrlFilter_twice text, changesOnlyLinks text, fun link hlink => ?_⟩
    rw [hlinks, List.mem_filter] at hlink
    exact hagree link hlink.1 (of_decide_eq_true hlink.2)

theorem unfangText_of_pass {words : WordChars} {text : List Char}
    (hpass : dotFang.pass words text = text ∧ wordDotFang.pass words text = text ∧
      atFang.pass words text = text) : unfangText words text = text := by
  obtain ⟨hdot, hword, hat⟩ := hpass
  exact unfangText_of_free ((dotFang.pass_eq_iff text).mp hdot)
    ((wordDotFang.pass_eq_iff text).mp hword) ((atFang.pass_eq_iff text).mp hat)

def asciiWord : List Char :=
  "abcdefghijklmnopqrstuvwxyzABCDEFGHIJKLMNOPQRSTUVWXYZ0123456789_".toList

theorem asciiWord_punctuation :
    ∀ c ∈ "[]().@,;!?:<>\"'\x7d".toList, asciiWord.contains c = false :=
  List.all_iff_forall_prop.mp (by decide)

theorem asciiWord_blank (c : Char) (h : isWhitespace c = true) : asciiWord.contains c = false := by
  have hall : ∀ d ∈ asciiWord, isWhitespace d = false :=
    List.all_iff_forall_prop.mp (by decide +kernel)
  cases hc : asciiWord.contains c with
  | false => rfl
  | true =>
      rw [hall c (List.contains_iff_mem.mp hc)] at h
      cases h

/-- The word characters of ASCII. -/
def asciiWords : WordChars :=
  ⟨fun c => asciiWord.contains c, asciiWord_punctuation, asciiWord_blank⟩

/-- A link to another host, with a trusted domain behind a backslash and an `@`. -/
def disguised : List Char := "See https://evil.example\\@lightfriend.ai/login now".toList

/-- The filter leaves the link as it is, and a browser opens the other host. -/
theorem applySmsUrlFilter_disguised :
    applySmsUrlFilter asciiWords disguised = disguised ∧
    urlPattern.matchesIn disguised = ["https://evil.example\\@lightfriend.ai/login".toList] ∧
    browserHost "https://evil.example\\@lightfriend.ai/login".toList = "evil.example".toList ∧
    ¬ FiltersSafely asciiWords disguised := by
  have hunfang : unfangText asciiWords disguised = disguised :=
    unfangText_of_pass (by decide +kernel)
  have hfilter : applySmsUrlFilter asciiWords disguised = disguised := by
    rw [applySmsUrlFilter, hunfang]
    decide +kernel
  have hlinks : urlPattern.matchesIn disguised =
      ["https://evil.example\\@lightfriend.ai/login".toList] := by decide +kernel
  have hhost : browserHost "https://evil.example\\@lightfriend.ai/login".toList =
      "evil.example".toList := by decide +kernel
  refine ⟨hfilter, hlinks, hhost, fun hsafe => ?_⟩
  have htrusted := hsafe.hosts "https://evil.example\\@lightfriend.ai/login".toList
    (by rw [hfilter, hlinks]; exact List.mem_singleton_self _)
  unfold HostTrusted at htrusted
  rw [hhost] at htrusted
  revert htrusted
  decide +kernel

end Lightfriend.SmsDelivery
