import Lightfriend.SmsDelivery.Unfang
import Mathlib.Data.Bool.AllAny

/-! # The links of a text message

Every link that is not to a trusted domain is replaced by a placeholder before a
message is sent. The host of a link is found by splitting its text.
-/

namespace Lightfriend.SmsDelivery

open Text

/-! ## Links -/

/-- The characters at which a link ends, beside the blanks. -/
def urlDelimiters : List Char := "<>\"')]\x7d".toList

def isUrlChar (c : Char) : Bool := !isWhitespace c && !urlDelimiters.contains c

def httpScheme : List Char := ['h', 't', 't', 'p', ':', '/', '/']

def httpsScheme : List Char := ['h', 't', 't', 'p', 's', ':', '/', '/']

/-- The length of `https?://` at the start of a text. -/
def schemeLength (text : List Char) : Nat :=
  if httpScheme.isPrefixOf text then 7
  else if httpsScheme.isPrefixOf text then 8
  else 0

/-- The length of a link at the start of a text. -/
def findUrl (text : List Char) : Nat :=
  if schemeLength text = 0 then 0
  else
    match (text.drop (schemeLength text)).takeWhile isUrlChar with
    | [] => 0
    | c :: rest => schemeLength text + (c :: rest).length

/-- The scheme, and the characters up to a blank or a delimiter. -/
def urlPattern : Pattern where
  find := findUrl
  find_le text := by
    unfold findUrl
    split
    · omega
    · split
      · omega
      next c rest htake =>
        have hle := (List.takeWhile_prefix isUrlChar
          (l := text.drop (schemeLength text))).length_le
        rw [htake, List.length_drop] at hle
        simp only [List.length_cons] at hle ⊢
        omega

def trustedDomains : List String := ["lightfriend.ai", "lightfriend.app"]

def shortenerDomains : List String :=
  ["bit.ly", "t.co", "tinyurl.com", "goo.gl", "ow.ly", "is.gd", "buff.ly", "rebrand.ly", "cutt.ly",
    "shorturl.at", "tiny.cc", "rb.gy", "lnkd.in"]

def isTrailing (c : Char) : Bool := ".,;!?:".toList.contains c

/-- The link, and the punctuation after it. -/
def splitTrailingPunctuation (url : List Char) : List Char × List Char :=
  (trimEndMatches isTrailing url, url.drop (trimEndMatches isTrailing url).length)

/-- The part of a text after its first `://`. -/
def afterSeparator : List Char → Option (List Char)
  | [] => none
  | ':' :: '/' :: '/' :: rest => some rest
  | _ :: rest => afterSeparator rest

/-- `url.split_once("://").map(|(_, rest)| rest).unwrap_or(url)`. -/
def afterScheme (url : List Char) : List Char := (afterSeparator url).getD url

/-- `text.split('@').next_back()`. -/
def afterLast (c : Char) (text : List Char) : List Char :=
  (text.reverse.takeWhile (· ≠ c)).reverse

def isPathStart (c : Char) : Bool := c = '/' ∨ c = '?' ∨ c = '#'

/-- The host in an authority: what follows the user and precedes the port. -/
def hostOf (authority : List Char) : List Char :=
  (afterLast '@' authority).takeWhile (· ≠ ':')

def extractDomain (url : List Char) : Option (List Char) :=
  match hostOf ((afterScheme url).takeWhile (fun c => !isPathStart c)) with
  | [] => none
  | host => some host

/-- `to_ascii_lowercase`. -/
def lowercased (domain : List Char) : List Char := domain.map Char.toLower

def isTrusted (domain : List Char) : Bool :=
  trustedDomains.any (fun t =>
    lowercased domain == t.toList || ('.' :: t.toList).isSuffixOf (lowercased domain))

def isShortener (domain : List Char) : Bool :=
  shortenerDomains.any (fun s => lowercased domain == s.toList)

/-- The domain that decides about a match, empty when there is none. -/
def domainOf (raw : List Char) : List Char :=
  (extractDomain (splitTrailingPunctuation raw).1).getD []

def linkText : List Char := ['[', 'l', 'i', 'n', 'k', ']']

/-- `format!("[link: {}]", domain)`. -/
def placeholder (domain : List Char) : List Char :=
  ['[', 'l', 'i', 'n', 'k', ':', ' '] ++ domain ++ [']']

def replacement (raw : List Char) : List Char :=
  if domainOf raw = [] then linkText
  else if isTrusted (domainOf raw) then (splitTrailingPunctuation raw).1
  else if isShortener (domainOf raw) then linkText
  else placeholder (domainOf raw)

def replaceLink (raw : List Char) : List Char :=
  replacement raw ++ (splitTrailingPunctuation raw).2

def applyUrlFilterOnly (body : List Char) : List Char := urlPattern.replaceAll replaceLink body

def applySmsUrlFilter (words : WordChars) (body : List Char) : List Char :=
  applyUrlFilterOnly (unfangText words body)

/-! ## What a link is -/

/-- A match of the pattern. -/
structure IsLink (m : List Char) : Prop where
  parts : ∃ scheme body, (scheme = httpScheme ∨ scheme = httpsScheme) ∧
    m = scheme ++ body ∧ body ≠ [] ∧ ∀ c ∈ body, isUrlChar c = true

/-- A text that starts with a link, which ends where the characters of links end. -/
theorem findUrl_spec {text : List Char} (h : 0 < findUrl text) :
    ∃ scheme body rest, (scheme = httpScheme ∨ scheme = httpsScheme) ∧
      text = scheme ++ (body ++ rest) ∧ body ≠ [] ∧ (∀ c ∈ body, isUrlChar c = true) ∧
      (∀ c ∈ rest.head?, isUrlChar c = false) ∧ findUrl text = (scheme ++ body).length := by
  have hscheme : ∃ scheme tail, (scheme = httpScheme ∨ scheme = httpsScheme) ∧
      text = scheme ++ tail ∧ schemeLength text = scheme.length := by
    unfold findUrl at h
    have hpos : schemeLength text ≠ 0 := by
      intro hzero
      rw [if_pos hzero] at h
      exact absurd h (by omega)
    unfold schemeLength at hpos ⊢
    split
    next hhttp =>
      obtain ⟨tail, rfl⟩ := List.isPrefixOf_iff_prefix.mp hhttp
      exact ⟨_, tail, .inl rfl, rfl, rfl⟩
    next hhttp =>
      rw [if_neg hhttp] at hpos
      split
      next hhttps =>
        obtain ⟨tail, rfl⟩ := List.isPrefixOf_iff_prefix.mp hhttps
        exact ⟨_, tail, .inr rfl, rfl, rfl⟩
      next hhttps => rw [if_neg hhttps] at hpos; exact absurd rfl hpos
  obtain ⟨scheme, tail, hkind, rfl, hlength⟩ := hscheme
  have hlong : scheme.length ≠ 0 := by
    obtain rfl | rfl := hkind <;> decide
  unfold findUrl at h ⊢
  rw [hlength, if_neg hlong, List.drop_left] at h ⊢
  refine ⟨scheme, tail.takeWhile isUrlChar, tail.dropWhile isUrlChar, hkind,
    by rw [List.takeWhile_append_dropWhile], ?_, fun c hc => List.mem_takeWhile_imp hc, ?_, ?_⟩
  · intro hnil
    rw [hnil] at h
    exact absurd h (Nat.lt_irrefl 0)
  · intro c hc
    have hdrop := List.head?_dropWhile_not isUrlChar tail
    rw [Option.mem_def] at hc
    rw [hc] at hdrop
    simpa using hdrop
  · split
    next hnil =>
      rw [hnil] at h
      exact absurd h (Nat.lt_irrefl 0)
    next c rest hcons => rw [List.length_append, hcons]

theorem schemeLength_eq {scheme : List Char} (hkind : scheme = httpScheme ∨ scheme = httpsScheme)
    (rest : List Char) :
    schemeLength (scheme ++ rest) = scheme.length ∧ scheme.length ≠ 0 := by
  unfold schemeLength
  obtain rfl | rfl := hkind
  · rw [if_pos (List.isPrefixOf_iff_prefix.mpr (List.prefix_append _ _))]
    exact ⟨rfl, by decide⟩
  · rw [if_neg, if_pos (List.isPrefixOf_iff_prefix.mpr (List.prefix_append _ _))]
    · exact ⟨rfl, by decide⟩
    · simp [httpScheme, httpsScheme]

theorem findUrl_pos {scheme : List Char} {c : Char} (rest : List Char)
    (hkind : scheme = httpScheme ∨ scheme = httpsScheme) (hc : isUrlChar c = true) :
    0 < findUrl (scheme ++ c :: rest) := by
  obtain ⟨hscheme, hlong⟩ := schemeLength_eq hkind (c :: rest)
  unfold findUrl
  rw [hscheme, if_neg hlong, List.drop_left, List.takeWhile_cons, if_pos hc]
  simp only [List.length_cons]
  omega

/-! ## What a link becomes -/

/-- The filter leaves the link alone. -/
def Kept (m : List Char) : Prop := isTrusted (domainOf m) = true

instance (m : List Char) : Decidable (Kept m) := inferInstanceAs (Decidable (_ = true))

theorem splitTrailing_append (m : List Char) :
    (splitTrailingPunctuation m).1 ++ (splitTrailingPunctuation m).2 = m :=
  List.prefix_iff_eq_append.mp (trimEndMatches_isPrefix isTrailing m)

theorem mem_splitTrailing {m : List Char} {c : Char} (h : c ∈ (splitTrailingPunctuation m).2) :
    isTrailing c = true := by
  have hcut : m = (m.reverse.dropWhile isTrailing).reverse ++
      (m.reverse.takeWhile isTrailing).reverse := by
    rw [← List.reverse_append, List.takeWhile_append_dropWhile, List.reverse_reverse]
  have hdrop : (splitTrailingPunctuation m).2 = (m.reverse.takeWhile isTrailing).reverse := by
    have hsame := splitTrailing_append m
    have hfirst : (splitTrailingPunctuation m).1 = (m.reverse.dropWhile isTrailing).reverse := rfl
    rw [hfirst] at hsame
    exact List.append_cancel_left (hsame.trans hcut)
  rw [hdrop, List.mem_reverse] at h
  exact List.mem_takeWhile_imp h

theorem afterSeparator_suffix {url rest : List Char} (h : afterSeparator url = some rest) :
    rest <:+ url := by
  induction url using afterSeparator.induct with
  | case1 => cases h
  | case2 tail =>
      rw [afterSeparator] at h
      cases h
      exact ⟨[':', '/', '/'], rfl⟩
  | case3 d tail hne ih =>
      rw [afterSeparator] at h
      · exact (ih h).trans (List.suffix_cons d tail)
      · exact hne

theorem mem_afterScheme {url : List Char} {c : Char} (h : c ∈ afterScheme url) : c ∈ url := by
  unfold afterScheme at h
  cases hrest : afterSeparator url with
  | none =>
      rw [hrest] at h
      exact h
  | some rest =>
      rw [hrest] at h
      exact (afterSeparator_suffix hrest).subset h

theorem mem_hostOf {authority : List Char} {c : Char} (h : c ∈ hostOf authority) :
    c ∈ authority := by
  have hlast : c ∈ afterLast '@' authority := (List.takeWhile_prefix _).subset h
  rw [afterLast, List.mem_reverse] at hlast
  exact List.mem_reverse.mp ((List.takeWhile_prefix _).subset hlast)

/-- A domain is made of characters of the match, and of none that starts a path. -/
theorem mem_domainOf {m : List Char} {c : Char} (h : c ∈ domainOf m) :
    c ∈ m ∧ isPathStart c = false := by
  unfold domainOf extractDomain at h
  split at h
  next => exact absurd h List.not_mem_nil
  next host hhost =>
    have hin := mem_hostOf h
    have hpath := List.mem_takeWhile_imp hin
    have hurl := mem_afterScheme ((List.takeWhile_prefix _).subset hin)
    refine ⟨(trimEndMatches_isPrefix isTrailing m).subset hurl, ?_⟩
    simpa using hpath

theorem replaceLink_kept {m : List Char} (h : Kept m) : replaceLink m = m := by
  have hne : domainOf m ≠ [] := by
    intro hnil
    unfold Kept at h
    rw [hnil] at h
    revert h
    decide
  have htrusted : isTrusted (domainOf m) = true := h
  unfold replaceLink replacement
  rw [if_neg hne, if_pos htrusted]
  exact splitTrailing_append m

/-- What a link that is not kept becomes: a text in brackets, and its punctuation. -/
structure Bracketed (m inside trailing : List Char) : Prop where
  eq : replaceLink m = ['[', 'l', 'i', 'n', 'k'] ++ inside ++ ']' :: trailing
  mem_inside : ∀ c ∈ inside, c = ':' ∨ c = ' ' ∨ c ∈ m ∧ isPathStart c = false
  mem_trailing : ∀ c ∈ trailing, isTrailing c = true
  suffix : trailing <:+ m

theorem replaceLink_bracketed {m : List Char} (h : ¬ Kept m) :
    ∃ inside trailing, Bracketed m inside trailing := by
  have huntrusted : ¬ isTrusted (domainOf m) = true := h
  have hends : (splitTrailingPunctuation m).2 <:+ m := ⟨_, splitTrailing_append m⟩
  have hlink : replacement m = linkText → Bracketed m [] (splitTrailingPunctuation m).2 :=
    fun heq => ⟨by rw [replaceLink, heq]; rfl, fun c hc => absurd hc List.not_mem_nil,
      fun c hc => mem_splitTrailing hc, hends⟩
  by_cases hnil : domainOf m = []
  · exact ⟨_, _, hlink (if_pos hnil)⟩
  · by_cases hshort : isShortener (domainOf m) = true
    · refine ⟨_, _, hlink ?_⟩
      rw [replacement, if_neg hnil, if_neg huntrusted, if_pos hshort]
    · refine ⟨[':', ' '] ++ domainOf m, (splitTrailingPunctuation m).2, ?_, ?_,
        fun c hc => mem_splitTrailing hc, hends⟩
      · rw [replaceLink, replacement, if_neg hnil, if_neg huntrusted, if_neg hshort, placeholder]
        simp only [List.append_assoc, List.cons_append, List.nil_append]
      · intro c hc
        obtain hcolon | hdomain := List.mem_append.mp hc
        · simp only [List.mem_cons, List.not_mem_nil, or_false] at hcolon
          exact hcolon.imp_right .inl
        · exact .inr (.inr (mem_domainOf hdomain))

/-! ## The filtered text -/

theorem scheme_facts {scheme : List Char} (h : scheme = httpScheme ∨ scheme = httpsScheme) :
    (∃ tail, scheme = 'h' :: tail) ∧ '[' ∉ scheme ∧ ']' ∉ scheme ∧ '/' ∈ scheme ∧
      ∀ c ∈ scheme, isClosing c = false := by
  obtain rfl | rfl := h
  · exact ⟨⟨_, rfl⟩, by decide, by decide, by decide, List.all_iff_forall_prop.mp (by decide)⟩
  · exact ⟨⟨_, rfl⟩, by decide, by decide, by decide, List.all_iff_forall_prop.mp (by decide)⟩

theorem findUrl_iff {text : List Char} : 0 < findUrl text ↔
    ∃ scheme c rest, (scheme = httpScheme ∨ scheme = httpsScheme) ∧ text = scheme ++ c :: rest ∧
      isUrlChar c = true := by
  constructor
  · intro h
    obtain ⟨scheme, body, rest, hkind, rfl, hne, hbody, -, -⟩ := findUrl_spec h
    cases body with
    | nil => exact absurd rfl hne
    | cons c body =>
        exact ⟨scheme, c, body ++ rest, hkind, rfl, hbody c List.mem_cons_self⟩
  · rintro ⟨scheme, c, rest, hkind, rfl, hc⟩
    exact findUrl_pos rest hkind hc

/-- The first match, what follows it, and that a match is a link. -/
theorem found_spec {text : List Char} (h : 0 < findUrl text) :
    ∃ m rest, text = m ++ rest ∧ findUrl text = m.length ∧ IsLink m ∧
      (∀ c ∈ rest.head?, isUrlChar c = false) ∧ text.take (findUrl text) = m ∧
        text.drop (findUrl text) = rest := by
  obtain ⟨scheme, body, rest, hkind, htext, hne, hbody, hrest, hlength⟩ := findUrl_spec h
  have hcut : text = (scheme ++ body) ++ rest := by rw [htext, List.append_assoc]
  refine ⟨scheme ++ body, rest, hcut, hlength, ⟨scheme, body, hkind, rfl, hne, hbody⟩, hrest,
    ?_, ?_⟩
  · rw [hlength, hcut, List.take_left]
  · rw [hlength, hcut, List.drop_left]

/-- A text without links before its end is cut into its characters. -/
theorem scan_append {front back : List Char}
    (h : ∀ tail, tail ≠ [] → tail <:+ front → findUrl (tail ++ back) = 0) :
    urlPattern.scan (front ++ back) = front.map Piece.plain ++ urlPattern.scan back := by
  induction front with
  | nil => rfl
  | cons c front ih =>
      have hfirst : urlPattern.find (c :: (front ++ back)) = 0 :=
        h (c :: front) (List.cons_ne_nil _ _) (List.suffix_refl _)
      rw [List.cons_append, urlPattern.scan_plain hfirst,
        ih (fun tail hne hends => h tail hne (hends.trans (List.suffix_cons c front)))]
      rfl

/-- No link starts in a placeholder. -/
theorem findUrl_bracketed {m inside trailing : List Char} (h : Bracketed m inside trailing)
    (back tail : List Char) (hne : tail ≠ []) (hends : tail <:+ replaceLink m) :
    findUrl (tail ++ back) = 0 := by
  by_contra hpos
  obtain ⟨scheme, c, rest, hkind, htext, -⟩ := findUrl_iff.1 (Nat.pos_of_ne_zero hpos)
  obtain ⟨⟨after, hhead⟩, -, hclose, hslash, -⟩ := scheme_facts hkind
  rw [h.eq] at hends
  obtain ⟨front, hfront⟩ := hends
  obtain ⟨mid, hmid, htail⟩ | ⟨mid, hmid, htail⟩ := List.append_eq_append_iff.mp hfront
  · -- The tail starts before the closing bracket, which no scheme crosses.
    have hstarts : scheme <+: mid := by
      refine @prefix_append_cons _ scheme ']' hclose mid (trailing ++ back) ⟨c :: rest, ?_⟩
      rw [← htext, htail, List.append_assoc]
      rfl
    have hin : '/' ∈ mid := hstarts.subset hslash
    have hall : '/' ∈ ['[', 'l', 'i', 'n', 'k'] ++ inside := by
      rw [hmid]
      exact List.mem_append_right _ hin
    obtain hlink | hinside := List.mem_append.mp hall
    · revert hlink
      decide
    · obtain heq | heq | ⟨-, hpath⟩ := h.mem_inside _ hinside
      · revert heq
        decide
      · revert heq
        decide
      · revert hpath
        decide
  · -- The tail is the bracket or the punctuation after it.
    cases tail with
    | nil => exact absurd rfl hne
    | cons x tail =>
        rw [hhead] at htext
        obtain ⟨rfl, -⟩ := List.cons.inj htext
        have hin : 'h' ∈ ']' :: trailing := by
          rw [htail]
          exact List.mem_append_right _ List.mem_cons_self
        obtain heq | hin := List.mem_cons.mp hin
        · revert heq
          decide
        · have htrailing := h.mem_trailing _ hin
          revert htrailing
          decide

/-- The filter does not move a link: a text before it is there in the message, with what follows
or with the start of the link that was there. -/
theorem applyUrlFilterOnly_eq_append {p back body : List Char} {x : Char} (hp : '[' ∉ p)
    (h : applyUrlFilterOnly body = p ++ x :: back) :
    ∃ x' back', body = p ++ x' :: back' ∧ (x' = x ∨ x' = 'h') := by
  unfold applyUrlFilterOnly at h
  induction body using urlPattern.scan_induction generalizing p with
  | nil =>
      rw [Pattern.replaceAll_nil] at h
      simp at h
  | plain c rest hfind ih =>
      rw [Pattern.replaceAll_plain _ _ hfind] at h
      cases p with
      | nil =>
          obtain ⟨rfl, -⟩ := List.cons.inj h
          exact ⟨c, rest, rfl, .inl rfl⟩
      | cons d p =>
          obtain ⟨rfl, hrest⟩ := List.cons.inj h
          obtain ⟨x', back', rfl, hx⟩ := ih (fun hmem => hp (List.mem_cons_of_mem _ hmem)) hrest
          exact ⟨x', back', rfl, hx⟩
  | found text hfind ih =>
      obtain ⟨m, rest, rfl, hlength, hlink, -, htake, hdrop⟩ := found_spec hfind
      have hfound : urlPattern.find (m ++ rest) = findUrl (m ++ rest) := rfl
      rw [hfound, hdrop] at ih
      rw [Pattern.replaceAll_found _ _ hfind, hfound, htake, hdrop] at h
      by_cases hkept : Kept m
      · rw [replaceLink_kept hkept] at h
        obtain ⟨mid, hmid, hrest⟩ | ⟨mid, hmid, hrest⟩ := List.append_eq_append_iff.mp h
        · obtain ⟨x', back', hback, hx⟩ :=
            ih (fun hmem => hp (hmid ▸ List.mem_append_right _ hmem)) hrest
          exact ⟨x', back', by rw [hmid, hback, List.append_assoc], hx⟩
        · cases mid with
          | nil =>
              rw [List.append_nil] at hmid
              obtain ⟨x', back', hback, hx⟩ := @ih [] List.not_mem_nil hrest.symm
              exact ⟨x', back', by rw [hmid, hback]; rfl, hx⟩
          | cons y mid =>
              obtain ⟨rfl, -⟩ := List.cons.inj hrest
              exact ⟨x, mid ++ rest, by rw [hmid]; simp, .inl rfl⟩
      · obtain ⟨inside, trailing, hbracketed⟩ := replaceLink_bracketed hkept
        rw [hbracketed.eq] at h
        cases p with
        | nil =>
            obtain ⟨scheme, body, hkind, rfl, -, -⟩ := hlink.parts
            obtain ⟨⟨after, hhead⟩, -⟩ := scheme_facts hkind
            exact ⟨'h', after ++ body ++ rest, by rw [hhead]; simp, .inr rfl⟩
        | cons d p =>
            obtain ⟨rfl, -⟩ := List.cons.inj h
            exact absurd List.mem_cons_self hp

/-- What the second look at a filtered text finds in the place of a piece. -/
def seenAgain : Piece → List Piece
  | .plain c => [.plain c]
  | .found m => if Kept m then [.found m] else (replaceLink m).map .plain

/-- A character that is no part of a link stays in front of the filtered text. -/
theorem head_applyUrlFilterOnly {body : List Char} (h : ∀ c ∈ body.head?, isUrlChar c = false) :
    ∀ c ∈ (applyUrlFilterOnly body).head?, isUrlChar c = false := by
  cases body with
  | nil =>
      rw [applyUrlFilterOnly, Pattern.replaceAll_nil]
      exact fun c hc => by cases hc
  | cons d rest =>
      have hd : isUrlChar d = false := h d rfl
      have hfind : urlPattern.find (d :: rest) = 0 := by
        by_contra hpos
        obtain ⟨scheme, c, tail, hkind, htext, -⟩ := findUrl_iff.1 (Nat.pos_of_ne_zero hpos)
        obtain ⟨⟨after, hhead⟩, -⟩ := scheme_facts hkind
        rw [hhead] at htext
        obtain ⟨rfl, -⟩ := List.cons.inj htext
        revert hd
        decide
      rw [applyUrlFilterOnly, Pattern.replaceAll_plain _ _ hfind]
      exact h

/-- A link is found again where the text goes on with no character of it. -/
theorem findUrl_link {m back : List Char} (h : IsLink m)
    (hback : ∀ c ∈ back.head?, isUrlChar c = false) : findUrl (m ++ back) = m.length := by
  obtain ⟨scheme, body, hkind, rfl, hne, hbody⟩ := h.parts
  obtain ⟨hscheme, hlong⟩ := schemeLength_eq hkind (body ++ back)
  have htake : (body ++ back).takeWhile isUrlChar = body := by
    rw [List.takeWhile_append_of_pos hbody]
    cases back with
    | nil => simp
    | cons c back =>
        have hc : isUrlChar c = false := hback c rfl
        rw [List.takeWhile_cons, hc]
        simp
  unfold findUrl
  rw [List.append_assoc, hscheme, if_neg hlong, List.drop_left, htake, List.length_append]
  cases body with
  | nil => exact absurd rfl hne
  | cons c body => rfl

/-- A second look at the filtered text finds the links that were kept, and no others. -/
theorem scan_applyUrlFilterOnly (body : List Char) :
    urlPattern.scan (applyUrlFilterOnly body) = (urlPattern.scan body).flatMap seenAgain := by
  induction body using urlPattern.scan_induction with
  | nil => simp [applyUrlFilterOnly]
  | plain c rest hfind ih =>
      have hstill : urlPattern.find (c :: applyUrlFilterOnly rest) = 0 := by
        by_contra hpos
        obtain ⟨scheme, x, tail, hkind, htext, hx⟩ := findUrl_iff.1 (Nat.pos_of_ne_zero hpos)
        obtain ⟨⟨after, hhead⟩, hopen, -⟩ := scheme_facts hkind
        rw [hhead] at htext
        obtain ⟨rfl, hrest⟩ := List.cons.inj htext
        obtain ⟨x', tail', rfl, hx'⟩ := applyUrlFilterOnly_eq_append
          (fun hmem => hopen (hhead ▸ List.mem_cons_of_mem _ hmem)) hrest
        have hurl : isUrlChar x' = true := by
          obtain rfl | rfl := hx'
          · exact hx
          · decide
        have hpos' := findUrl_pos tail' hkind hurl
        rw [hhead] at hpos'
        exact absurd hfind (Nat.ne_of_gt hpos')
      have hfilter : applyUrlFilterOnly (c :: rest) = c :: applyUrlFilterOnly rest :=
        Pattern.replaceAll_plain _ _ hfind
      rw [hfilter, urlPattern.scan_plain hstill, ih, urlPattern.scan_plain hfind]
      rfl
  | found text hfind ih =>
      obtain ⟨m, rest, rfl, hlength, hlink, hrest, htake, hdrop⟩ := found_spec hfind
      have hfound : urlPattern.find (m ++ rest) = findUrl (m ++ rest) := rfl
      rw [hfound, hdrop] at ih
      have hfilter : applyUrlFilterOnly (m ++ rest) = replaceLink m ++ applyUrlFilterOnly rest := by
        rw [applyUrlFilterOnly, Pattern.replaceAll_found _ _ hfind, hfound, htake, hdrop]
        rfl
      rw [hfilter, urlPattern.scan_found hfind, hfound, htake, hdrop, List.flatMap_cons, ← ih]
      by_cases hkept : Kept m
      · have hagain := findUrl_link hlink (head_applyUrlFilterOnly hrest)
        have hpos : 0 < urlPattern.find (m ++ applyUrlFilterOnly rest) := by
          change 0 < findUrl _
          rw [hagain, ← hlength]
          exact hfind
        have hfound' : urlPattern.find (m ++ applyUrlFilterOnly rest) = m.length := hagain
        rw [replaceLink_kept hkept, urlPattern.scan_found hpos, hfound', List.take_left,
          List.drop_left, seenAgain, if_pos hkept]
        rfl
      · obtain ⟨inside, trailing, hbracketed⟩ := replaceLink_bracketed hkept
        rw [seenAgain, if_neg hkept]
        exact scan_append (fun tail hne hends => findUrl_bracketed hbracketed _ tail hne hends)

/-- Filtering twice is filtering once. -/
theorem applyUrlFilterOnly_twice (body : List Char) :
    applyUrlFilterOnly (applyUrlFilterOnly body) = applyUrlFilterOnly body := by
  have hpiece : ∀ piece, (seenAgain piece).flatMap (Piece.render replaceLink) =
      piece.render replaceLink := by
    intro piece
    cases piece with
    | plain c => rfl
    | found m =>
        rw [seenAgain]
        split
        next hkept => simp [Piece.render]
        next hkept => simp [Piece.render, List.flatMap_map]
  rw [applyUrlFilterOnly, Pattern.replaceAll, scan_applyUrlFilterOnly, List.flatMap_assoc]
  simp only [hpiece]
  rfl

theorem matchesIn_applyUrlFilterOnly (body : List Char) :
    urlPattern.matchesIn (applyUrlFilterOnly body) =
      (urlPattern.matchesIn body).filter (fun m => decide (Kept m)) := by
  unfold Pattern.matchesIn
  rw [scan_applyUrlFilterOnly]
  induction urlPattern.scan body with
  | nil => rfl
  | cons piece rest ih =>
      rw [List.flatMap_cons, List.filterMap_append, ih]
      cases piece with
      | plain c => rfl
      | found m =>
          rw [seenAgain]
          split
          next hkept => simp [hkept]
          next hkept => simp [hkept, List.filterMap_map]

end Lightfriend.SmsDelivery
