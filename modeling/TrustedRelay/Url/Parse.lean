import TrustedRelay.Rust.Text

/-!
# URL parsing, up to the authority

The basic URL parser of the WHATWG standard as the `url` crate runs it on an absolute `http`
or `https` string: trim C0 controls and spaces, drop tabs and newlines, read the scheme, skip
the slashes, cut the authority at the first slash, backslash, question mark or number sign, and
split it into credentials, host and port. Path, query and fragment never make an `http(s)` URL
invalid and nothing in this development reads them, so a parsed `Url` ends at its port.

Host parsing proper (percent-decoding, IDNA, the two address syntaxes) is a parameter,
`UrlParser`, with the two documented facts that are used: a host holding a C0 control or a space
is refused, and the printed form of a host parses back to that host. A `Host` carries the
alphabet of its printed form, so no host that the standard forbids can be built.

The main result is `parse_eq_parseAuthority`: a URL is its scheme and its authority text.
-/

namespace TrustedRelay

/-! ### Hosts -/

inductive HostKind
  | domain
  | ipv4
  | ipv6
deriving DecidableEq, Repr

/-- The forbidden domain code points outside the C0 controls, the space and `DEL`. -/
def isForbiddenHostChar (c : Char) : Bool :=
  c ∈ ['#', '%', '/', ':', '<', '>', '?', '@', '[', '\\', ']', '^', '|']

/-- The alphabet of a printed host; a domain is in its ASCII form, already lowercased. -/
def HostKind.isChar : HostKind → Char → Bool
  | .domain, c => 0x20 < c.toNat && c.toNat < 0x7F && !c.isUpper && !isForbiddenHostChar c
  | .ipv4, c => c.isDigit || c == '.'
  | .ipv6, c => c.isDigit || ('a' ≤ c && c ≤ 'f') || c == ':'

/-- A parsed host with its printed form; an IPv6 address without its brackets. -/
structure Host where
  kind : HostKind
  text : Text
  nonempty : text ≠ []
  chars : ∀ c ∈ text, kind.isChar c = true
  colon : kind = .ipv6 → ':' ∈ text
deriving DecidableEq

/-- `Url::host_str`: an IPv6 address is written in brackets. -/
def Host.hostStr (h : Host) : Text :=
  if h.kind = .ipv6 then '[' :: h.text ++ [']'] else h.text

/-- The characters that never occur inside a printed host. -/
def hostFreeChars : List Char := ['\n', '#', '%', '/', '<', '>', '?', '@', '\\', '^', '|']

theorem HostKind.isChar_eq_false_of_mem (k : HostKind) :
    ∀ c ∈ '[' :: ']' :: hostFreeChars, k.isChar c = false := by
  have hall : ('[' :: ']' :: hostFreeChars).all (!k.isChar ·) = true := by
    cases k <;> decide
  simpa using hall

/-- Printed hosts are visible ASCII without uppercase letters. -/
theorem HostKind.isChar_range {k : HostKind} {c : Char} (h : k.isChar c = true) :
    0x20 < c.toNat ∧ c.toNat < 0x7F ∧ c.isUpper = false := by
  have hc : c.toNat = c.val.toNat := rfl
  have hdigit : c.isDigit = true → 0x20 < c.toNat ∧ c.toNat < 0x7F ∧ c.isUpper = false := by
    intro hd
    simp only [Char.isDigit, Char.isUpper, ge_iff_le, Char.reduceVal, Bool.and_eq_true,
      decide_eq_true_eq, UInt32.le_iff_toNat_le, UInt32.reduceToNat, Bool.decide_and,
      Bool.and_eq_false_iff, decide_eq_false_iff_not] at hd ⊢
    omega
  cases k with
  | domain =>
    simp only [HostKind.isChar, Bool.and_eq_true, decide_eq_true_eq, Bool.not_eq_true'] at h
    exact ⟨h.1.1.1, h.1.1.2, h.1.2⟩
  | ipv4 =>
    simp only [HostKind.isChar, Bool.or_eq_true, beq_iff_eq] at h
    rcases h with h | rfl
    · exact hdigit h
    · decide
  | ipv6 =>
    simp only [HostKind.isChar, Bool.or_eq_true, beq_iff_eq, Bool.and_eq_true,
      decide_eq_true_eq] at h
    rcases h with (h | h) | rfl
    · exact hdigit h
    · simp only [Char.le_def, Char.reduceVal, UInt32.le_iff_toNat_le, UInt32.reduceToNat] at h
      simp only [Char.isUpper, ge_iff_le, Char.reduceVal, UInt32.le_iff_toNat_le,
        UInt32.reduceToNat, Bool.decide_and, Bool.and_eq_false_iff, decide_eq_false_iff_not]
      omega
    · decide

/-- The characters of a printed host. -/
theorem Host.mem_hostStr {h : Host} {c : Char} (hc : c ∈ h.hostStr) :
    c = '[' ∨ c = ']' ∨ h.kind.isChar c = true := by
  unfold Host.hostStr at hc
  split_ifs at hc
  · simp only [List.cons_append, List.mem_cons, List.mem_append, List.not_mem_nil, or_false] at hc
    rcases hc with rfl | hc | rfl
    · exact Or.inl rfl
    · exact Or.inr (Or.inr (h.chars c hc))
    · simp
  · exact Or.inr (Or.inr (h.chars c hc))

theorem Host.hostStr_range {h : Host} {c : Char} (hc : c ∈ h.hostStr) :
    0x20 < c.toNat ∧ c.toNat < 0x7F ∧ c.isUpper = false := by
  rcases Host.mem_hostStr hc with rfl | rfl | hk
  · decide
  · decide
  · exact HostKind.isChar_range hk

theorem Host.not_mem_hostStr {h : Host} {c : Char} (hc : c ∈ hostFreeChars) : c ∉ h.hostStr := by
  intro hmem
  rcases Host.mem_hostStr hmem with rfl | rfl | hk
  · revert hc; decide
  · revert hc; decide
  · rw [HostKind.isChar_eq_false_of_mem h.kind c (by simp [hc])] at hk
    exact absurd hk (by decide)

theorem Host.hostStr_ne_nil (h : Host) : h.hostStr ≠ [] := by
  unfold Host.hostStr
  split_ifs
  · simp
  · exact h.nonempty

/-- A printed host is lowercase already. -/
theorem Host.toAsciiLowercase_hostStr (h : Host) :
    Text.toAsciiLowercase h.hostStr = h.hostStr := by
  rw [Text.toAsciiLowercase, List.map_congr_left (g := id), List.map_id]
  intro c hc
  have hup := (Host.hostStr_range hc).2.2
  rw [Char.toLower, dif_neg]
  · rfl
  · simpa [Char.isUpper] using hup

/-! ### The parser -/

/-- A parsed URL: the components before the path. The credentials are kept as written;
percent-encoding them changes neither which of them is empty nor which is absent. -/
structure Url where
  scheme : Text
  username : Text
  password : Option Text
  host : Option Host
  port : Option ℕ
deriving DecidableEq

def isC0OrSpace (c : Char) : Bool := c.toNat ≤ 0x20

/-- The parts of URL parsing that are not modelled: hosts, and the schemes other than `http`
and `https`, with what is documented of the former. -/
structure UrlParser where
  hostParse : Text → Option Host
  otherParse : Text → Text → Option Url
  hostParse_eq_none : ∀ s, (∃ c ∈ s, isC0OrSpace c = true) → hostParse s = none
  hostParse_hostStr : ∀ s h, hostParse s = some h → hostParse h.hostStr = some h

namespace Url

def isTabOrNewline (c : Char) : Bool := c == '\t' || c == '\n' || c == '\r'

/-- Trim C0 controls and spaces, then drop tabs and newlines everywhere. -/
def clean (s : Text) : Text :=
  ((s.dropWhile isC0OrSpace).rdropWhile isC0OrSpace).filter (!isTabOrNewline ·)

def isSchemeChar (c : Char) : Bool := c.isAlphanum || c == '+' || c == '-' || c == '.'

/-- The scheme, lowercased, and what follows its colon. -/
def splitScheme (s : Text) : Option (Text × Text) :=
  match s.head?, s.dropWhile isSchemeChar with
  | some c, ':' :: rest =>
    if c.isAlpha then some (Text.toAsciiLowercase (s.takeWhile isSchemeChar), rest) else none
  | _, _ => none

def isSlash (c : Char) : Bool := c == '/' || c == '\\'

/-- The characters that end an authority. -/
def isAuthorityEnd (c : Char) : Bool := isSlash c || c == '?' || c == '#'

/-- The authority: any slashes are skipped, then it runs to the first ending character. -/
def authorityText (rest : Text) : Text :=
  (rest.dropWhile isSlash).takeWhile (!isAuthorityEnd ·)

/-- Scheme and authority of a URL string. -/
def split (s : Text) : Option (Text × Text) :=
  (splitScheme (clean s)).map fun p => (p.1, authorityText p.2)

/-- The credentials end at the last `@`. An empty password is absent. -/
def splitUserinfo (a : Text) : Text × Option Text × Text :=
  let hostport := (a.reverse.takeWhile (· != '@')).reverse
  let userinfo := (a.reverse.dropWhile (· != '@')).tail.reverse
  let username := userinfo.takeWhile (· != ':')
  let password := (userinfo.dropWhile (· != ':')).tail
  (username, if password = [] then none else some password, hostport)

/-- The host ends at the first colon outside brackets. -/
def spanHost (inside : Bool) : Text → Text × Text
  | [] => ([], [])
  | c :: cs =>
    if c == ':' && !inside then ([], c :: cs)
    else
      let inside := if c == '[' then true else if c == ']' then false else inside
      (c :: (spanHost inside cs).1, (spanHost inside cs).2)

/-- The port a scheme uses when none is written. -/
def defaultPort (scheme : Text) : Option ℕ :=
  if scheme = "https".toList then some 443
  else if scheme = "http".toList then some 80
  else none

/-- The port after the host: absent, empty or the default is `none`. -/
def parsePort (scheme : Text) : Text → Option (Option ℕ)
  | ':' :: digits =>
    let port := Nat.ofDigitChars 10 digits 0
    if digits.all Char.isDigit && port ≤ 65535 then
      some (if digits = [] ∨ some port = defaultPort scheme then none else some port)
    else none
  | _ => some none

section Parser

variable (P : UrlParser)

/-- Authority state: credentials, host and port of an `http` or `https` URL. -/
def parseAuthority (scheme a : Text) : Option Url :=
  let (username, password, hostport) := splitUserinfo a
  let (host, port) := spanHost false hostport
  if host = [] then none
  else do
    let host ← P.hostParse host
    let port ← parsePort scheme port
    some { scheme, username, password, host := some host, port }

def isHttpScheme (scheme : Text) : Bool :=
  scheme == "http".toList || scheme == "https".toList

/-- `Url::parse`. A string without a scheme is relative and is refused. -/
def parse (s : Text) : Option Url :=
  match splitScheme (clean s) with
  | none => none
  | some (scheme, rest) =>
    if isHttpScheme scheme then parseAuthority P scheme (authorityText rest)
    else (P.otherParse scheme rest).map ({ · with scheme })

/-- `Url::host_str`. -/
def hostStr (u : Url) : Option Text := u.host.map Host.hostStr

/-- `Url::port_or_known_default`. -/
def portOrKnownDefault (u : Url) : Option ℕ := u.port.or (defaultPort u.scheme)

/-- An `http` or `https` URL is determined by its scheme and its authority text. -/
theorem parse_eq_parseAuthority {s scheme a : Text} (h : split s = some (scheme, a))
    (hs : isHttpScheme scheme = true) : parse P s = parseAuthority P scheme a := by
  simp only [split, Option.map_eq_some_iff, Prod.mk.injEq] at h
  obtain ⟨⟨sch, rest⟩, hsplit, rfl, rfl⟩ := h
  simp only at hs
  simp [parse, hsplit, hs]

/-- What a parsed authority is made of. -/
theorem parseAuthority_eq_some {scheme a : Text} {u : Url}
    (h : parseAuthority P scheme a = some u) :
    u.scheme = scheme ∧ (∃ s host, P.hostParse s = some host ∧ u.host = some host) ∧
      ∀ n, u.port = some n → n ≤ 65535 := by
  unfold parseAuthority at h
  simp only [Option.bind_eq_bind, Option.ite_none_left_eq_some, Option.bind_eq_some_iff,
    Option.some.injEq] at h
  obtain ⟨-, host, hhost, port, hport, rfl⟩ := h
  refine ⟨rfl, ⟨_, host, hhost, rfl⟩, ?_⟩
  intro n hn
  simp only at hn
  subst hn
  unfold parsePort at hport
  split at hport
  · simp only [Option.ite_none_right_eq_some, Bool.and_eq_true, decide_eq_true_eq,
      Option.some.injEq] at hport
    obtain ⟨⟨-, hle⟩, heq⟩ := hport
    split_ifs at heq
    cases heq
    exact hle
  · simp at hport

/-- A parsed URL splits into its scheme and some authority text. -/
theorem split_of_parse {s : Text} {u : Url} (h : parse P s = some u) :
    ∃ a, Url.split s = some (u.scheme, a) := by
  unfold parse at h
  split at h
  · simp at h
  · next scheme rest heq =>
    refine ⟨authorityText rest, ?_⟩
    rw [Url.split, heq, Option.map_some]
    split_ifs at h
    · rw [(parseAuthority_eq_some P h).1]
    · obtain ⟨v, -, rfl⟩ := Option.map_eq_some_iff.mp h
      rfl

/-- An `http` or `https` URL has a parsed host and a 16-bit port. -/
theorem parse_eq_some {s : Text} {u : Url} (h : parse P s = some u)
    (hs : isHttpScheme u.scheme = true) :
    (∃ t host, P.hostParse t = some host ∧ u.host = some host) ∧
      ∀ n, u.port = some n → n ≤ 65535 := by
  unfold parse at h
  split at h
  · simp at h
  · next scheme rest _ =>
    split_ifs at h with hsch
    · exact (parseAuthority_eq_some P h).2
    · obtain ⟨v, -, rfl⟩ := Option.map_eq_some_iff.mp h
      exact absurd hs hsch

/-! ### Printed URLs parse back -/

theorem clean_eq_self {s : Text} (h : ∀ c ∈ s, isC0OrSpace c = false) : clean s = s := by
  have hdrop : s.dropWhile isC0OrSpace = s := by
    cases s with
    | nil => rfl
    | cons c t => simp [h c List.mem_cons_self]
  have hrdrop : s.rdropWhile isC0OrSpace = s :=
    List.rdropWhile_eq_self_iff.mpr fun hne => by simp [h _ (List.getLast_mem hne)]
  rw [clean, hdrop, hrdrop, List.filter_eq_self]
  intro c hc
  have hne := h c hc
  simp only [isTabOrNewline, Bool.not_eq_true', Bool.or_eq_false_iff, beq_eq_false_iff_ne]
  refine ⟨⟨?_, ?_⟩, ?_⟩ <;> rintro rfl <;> exact absurd hne (by decide)

/-- An authority follows the two slashes and reaches to the end. -/
theorem authorityText_eq {a : Text} (h : ∀ c ∈ a, isAuthorityEnd c = false) :
    authorityText ('/' :: '/' :: a) = a := by
  have hdrop : a.dropWhile isSlash = a := by
    cases a with
    | nil => rfl
    | cons c t =>
      have hc := h c List.mem_cons_self
      simp only [isAuthorityEnd, Bool.or_eq_false_iff] at hc
      simp [hc.1.1]
  have hslash : isSlash '/' = true := by decide
  rw [authorityText, List.dropWhile_cons_of_pos hslash, List.dropWhile_cons_of_pos hslash, hdrop,
    List.takeWhile_eq_self_iff]
  simpa using h

theorem splitUserinfo_eq {a : Text} (h : '@' ∉ a) : splitUserinfo a = ([], none, a) := by
  have hall : ∀ c ∈ a.reverse, (c != '@') = true := by
    intro c hc
    simp only [bne_iff_ne, ne_eq]
    rintro rfl
    exact h (List.mem_reverse.mp hc)
  simp [splitUserinfo, List.takeWhile_eq_self_iff.mpr hall, List.dropWhile_eq_nil_iff.mpr hall]

/-- Outside brackets a text without colons and brackets is all host. -/
theorem spanHost_append {a : Text} (b : Text) (h : ∀ c ∈ a, c ≠ ':' ∧ c ≠ '[' ∧ c ≠ ']') :
    spanHost false (a ++ ':' :: b) = (a, ':' :: b) := by
  induction a with
  | nil => simp [spanHost]
  | cons c t ih =>
    obtain ⟨h1, h2, h3⟩ := h c List.mem_cons_self
    have iht := ih fun d hd => h d (List.mem_cons_of_mem _ hd)
    simp [spanHost, h1, h2, h3, iht]

/-- Inside brackets the host runs to the closing one. -/
theorem spanHost_bracket_append {a : Text} (b : Text) (h : ∀ c ∈ a, c ≠ '[' ∧ c ≠ ']') :
    spanHost true (a ++ ']' :: ':' :: b) = (a ++ [']'], ':' :: b) := by
  induction a with
  | nil => simp [spanHost]
  | cons c t ih =>
    obtain ⟨h1, h2⟩ := h c List.mem_cons_self
    have iht := ih fun d hd => h d (List.mem_cons_of_mem _ hd)
    simp [spanHost, h1, h2, iht]

theorem spanHost_hostStr (h : Host) (b : Text) :
    spanHost false (h.hostStr ++ ':' :: b) = (h.hostStr, ':' :: b) := by
  have hbr : ∀ c ∈ h.text, c ≠ '[' ∧ c ≠ ']' := by
    intro c hc
    constructor <;> rintro rfl <;>
      exact absurd (h.chars _ hc) (by rw [HostKind.isChar_eq_false_of_mem h.kind _ (by simp)]; decide)
  unfold Host.hostStr
  split_ifs with hk
  · have hspan := spanHost_bracket_append b hbr
    simp [spanHost, hspan]
  · refine spanHost_append b fun c hc => ⟨?_, hbr c hc⟩
    rintro rfl
    have hchar := h.chars _ hc
    cases hkind : h.kind with
    | domain => rw [hkind] at hchar; exact absurd hchar (by decide)
    | ipv4 => rw [hkind] at hchar; exact absurd hchar (by decide)
    | ipv6 => exact hk hkind

theorem parsePort_decimal (scheme : Text) {n : ℕ} (hn : n ≤ 65535) :
    parsePort scheme (':' :: Text.decimal n) =
      some (if some n = defaultPort scheme then none else some n) := by
  have hall : (Text.decimal n).all Char.isDigit = true :=
    List.all_eq_true.mpr fun c hc => Text.isDigit_of_mem_decimal hc
  have hval : Nat.ofDigitChars 10 (Text.decimal n) 0 = n := Nat.ofDigitChars_ten_toDigits
  have hne : Text.decimal n ≠ [] := Nat.toDigits_ne_nil
  simp [parsePort, hall, hval, hn, hne]

/-- A printed authority is visible and holds no delimiter. -/
theorem mem_hostport {h : Host} {n : ℕ} {c : Char} (hc : c ∈ h.hostStr ++ ':' :: Text.decimal n) :
    0x20 < c.toNat ∧ c ∉ hostFreeChars := by
  rcases List.mem_append.mp hc with hc | hc
  · exact ⟨(Host.hostStr_range hc).1, fun hf => Host.not_mem_hostStr hf hc⟩
  rcases List.mem_cons.mp hc with rfl | hc
  · decide
  · have hk : HostKind.ipv4.isChar c = true := by
      simp [HostKind.isChar, Text.isDigit_of_mem_decimal hc]
    refine ⟨(HostKind.isChar_range hk).1, fun hf => ?_⟩
    rw [HostKind.isChar_eq_false_of_mem _ c (by simp [hf])] at hk
    exact absurd hk (by decide)

/-- A printed URL splits into its scheme and its authority. -/
theorem split_printed {scheme : Text} (h : Host) (n : ℕ) (hs : isHttpScheme scheme = true) :
    split (scheme ++ "://".toList ++ h.hostStr ++ ":".toList ++ Text.decimal n) =
      some (scheme, h.hostStr ++ ':' :: Text.decimal n) := by
  have hx : ∀ c ∈ h.hostStr ++ ':' :: Text.decimal n, isC0OrSpace c = false := by
    intro c hc
    simpa [isC0OrSpace] using (mem_hostport hc).1
  have hend : ∀ c ∈ h.hostStr ++ ':' :: Text.decimal n, isAuthorityEnd c = false := by
    intro c hc
    have hf := (mem_hostport hc).2
    simp only [isAuthorityEnd, isSlash, Bool.or_eq_false_iff, beq_eq_false_iff_ne]
    refine ⟨⟨⟨?_, ?_⟩, ?_⟩, ?_⟩ <;> rintro rfl <;> exact hf (by decide)
  have hcl : ∀ c ∈ scheme ++ "://".toList ++ h.hostStr ++ ":".toList ++ Text.decimal n,
      isC0OrSpace c = false := by
    intro c hc
    simp only [isHttpScheme, Bool.or_eq_true, beq_iff_eq] at hs
    have hlit : ("http://".toList ++ "https://".toList).all (!isC0OrSpace ·) = true := by decide
    have hc' : c ∈ scheme ++ "://".toList ∨ c ∈ h.hostStr ++ ':' :: Text.decimal n := by
      rw [← List.mem_append]
      simpa using hc
    rcases hc' with hc' | hc'
    · have hm : c ∈ "http://".toList ++ "https://".toList := by
        rcases hs with rfl | rfl
        · exact List.mem_append_left _ hc'
        · exact List.mem_append_right _ hc'
      simpa using List.all_eq_true.mp hlit c hm
    · exact hx c hc'
  have hscheme : splitScheme (scheme ++ "://".toList ++ h.hostStr ++ ":".toList ++ Text.decimal n)
      = some (scheme, '/' :: '/' :: (h.hostStr ++ ':' :: Text.decimal n)) := by
    have hassoc : scheme ++ "://".toList ++ h.hostStr ++ ":".toList ++ Text.decimal n =
        scheme ++ ("://".toList ++ (h.hostStr ++ ':' :: Text.decimal n)) := by
      simp
    simp only [isHttpScheme, Bool.or_eq_true, beq_iff_eq] at hs
    rw [hassoc]
    rcases hs with rfl | rfl <;> rfl
  rw [split, clean_eq_self hcl, hscheme, Option.map_some, authorityText_eq hend]

/-- A host and a port written out after a scheme parse back to themselves. -/
theorem parse_printed {scheme s : Text} {h : Host} {n : ℕ} (hs : isHttpScheme scheme = true)
    (hh : P.hostParse s = some h) (hn : n ≤ 65535) :
    parse P (scheme ++ "://".toList ++ h.hostStr ++ ":".toList ++ Text.decimal n) =
      some ⟨scheme, [], none, some h, if some n = defaultPort scheme then none else some n⟩ := by
  have hat : '@' ∉ h.hostStr ++ ':' :: Text.decimal n := fun hmem =>
    (mem_hostport hmem).2 (by decide)
  rw [parse_eq_parseAuthority P (split_printed h n hs) hs, parseAuthority]
  simp [splitUserinfo_eq hat, spanHost_hostStr, h.hostStr_ne_nil, P.hostParse_hostStr s h hh,
    parsePort_decimal scheme hn]

end Parser

end Url

/-! ### Plain hosts -/

/-- A host of the given kind, if the text is one in printed form. -/
def Host.ofText (kind : HostKind) (text : Text) : Option Host :=
  if h : text ≠ [] ∧ text.all kind.isChar = true ∧ (kind = .ipv6 → ':' ∈ text) then
    some ⟨kind, text, h.1, List.all_eq_true.mp h.2.1, h.2.2⟩
  else none

/-- The kind of an unbracketed name: an address if it is made of digits and dots only. -/
def plainKind (name : Text) : HostKind :=
  if name.all HostKind.ipv4.isChar then .ipv4 else .domain

/-- Hosts that need no percent-decoding and no IDNA: visible ASCII names, dotted decimals and
bracketed addresses in canonical form. -/
def plainHostParse (s : Text) : Option Host :=
  if s.head? = some '[' then
    if s.getLast? = some ']' then Host.ofText .ipv6 s.tail.dropLast else none
  else Host.ofText (plainKind (Text.toAsciiLowercase s)) (Text.toAsciiLowercase s)

theorem Host.ofText_eq_some {kind : HostKind} {text : Text} {h : Host}
    (hh : Host.ofText kind text = some h) : h.kind = kind ∧ h.text = text := by
  unfold Host.ofText at hh
  split_ifs at hh
  cases hh
  exact ⟨rfl, rfl⟩

theorem Host.ofText_self (h : Host) : Host.ofText h.kind h.text = some h := by
  unfold Host.ofText
  rw [dif_pos ⟨h.nonempty, List.all_eq_true.mpr h.chars, h.colon⟩]

theorem Host.ofText_eq_none {kind : HostKind} {text : Text} {c : Char} (hc : c ∈ text)
    (hlow : isC0OrSpace c = true) : Host.ofText kind text = none := by
  refine dif_neg fun h => ?_
  have hr := (HostKind.isChar_range (List.all_eq_true.mp h.2.1 c hc)).1
  simp only [isC0OrSpace, decide_eq_true_eq] at hlow
  omega

theorem eq_bracketed {s : Text} (h1 : s.head? = some '[') (h2 : s.getLast? = some ']') :
    s = '[' :: s.tail.dropLast ++ [']'] := by
  cases s with
  | nil => simp at h1
  | cons d rest =>
    obtain rfl : d = '[' := by simpa using h1
    have hne : rest ≠ [] := by
      rintro rfl
      exact absurd h2 (by decide)
    rw [List.getLast?_cons_of_ne_nil hne] at h2
    simp [List.dropLast_append_getLast? ']' h2]

theorem plainHostParse_eq_none {s : Text} {c : Char} (hc : c ∈ s) (hlow : isC0OrSpace c = true) :
    plainHostParse s = none := by
  unfold plainHostParse
  split_ifs with h1 h2
  · rw [eq_bracketed h1 h2] at hc
    simp only [List.cons_append, List.mem_cons, List.mem_append, List.not_mem_nil, or_false] at hc
    rcases hc with rfl | hc | rfl
    · exact absurd hlow (by decide)
    · exact Host.ofText_eq_none hc hlow
    · exact absurd hlow (by decide)
  · rfl
  · refine Host.ofText_eq_none (List.mem_map.mpr ⟨c, hc, ?_⟩) hlow
    rw [Char.toLower, dif_neg]
    have hlow' : c.val.toNat ≤ 0x20 := by simpa [isC0OrSpace] using hlow
    simp only [ge_iff_le, Char.reduceVal, UInt32.le_iff_toNat_le, UInt32.reduceToNat]
    omega

theorem plainHostParse_hostStr {s : Text} {h : Host} (hh : plainHostParse s = some h) :
    plainHostParse h.hostStr = some h := by
  unfold plainHostParse at hh
  split_ifs at hh with h1 h2
  · obtain ⟨hk, -⟩ := Host.ofText_eq_some hh
    have hself := Host.ofText_self h
    rw [hk] at hself
    have hlast : ('[' :: (h.text ++ [']'])).getLast? = some ']' := by
      rw [← List.cons_append, List.getLast?_concat]
    simp [plainHostParse, Host.hostStr, hk, hself, hlast]
  · obtain ⟨hk, ht⟩ := Host.ofText_eq_some hh
    have hne : h.kind ≠ .ipv6 := by
      rw [hk, plainKind]
      split_ifs <;> decide
    have hstr : h.hostStr = h.text := if_neg hne
    have hbr : h.text.head? ≠ some '[' := by
      intro hb
      have := h.chars '[' (List.mem_of_mem_head? hb)
      rw [HostKind.isChar_eq_false_of_mem h.kind _ (by simp)] at this
      exact absurd this (by decide)
    have hlow : Text.toAsciiLowercase h.text = h.text := hstr ▸ h.toAsciiLowercase_hostStr
    rw [plainHostParse, hstr, if_neg hbr, hlow, ← Host.ofText_self h, hk, ht]

/-- The parser for plain hosts; it refuses every scheme but `http` and `https`. -/
def plainUrlParser : UrlParser where
  hostParse := plainHostParse
  otherParse := fun _ _ => none
  hostParse_eq_none := fun _ ⟨_, hc, hlow⟩ => plainHostParse_eq_none hc hlow
  hostParse_hostStr := fun _ _ hh => plainHostParse_hostStr hh

example : Url.parse plainUrlParser "HTTPS://API.OpenAI.COM:443/v1".toList =
    Url.parse plainUrlParser "https://api.openai.com".toList := by decide

end TrustedRelay
