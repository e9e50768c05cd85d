import Mathlib.Data.List.TakeWhile
import RtcEgress.Lib.Json
import RtcEgress.Lib.Utf8

/-!
# Go の `net/url` の `Parse`

バイトの列としての URL の読み取りを、Go 1.22 の `net/url` から写す。結果のうち、スキーム、ホスト、フラグメントを残す。
検査されないクエリと、読み取りの成否だけに関わる利用者の情報とパスは、読み捨てる。
-/

namespace RtcEgress.Lib.NetUrl

open RtcEgress.Lib.Json (isDigit unhex)

/-! ## バイトの列 -/

def isUpper (b : UInt8) : Bool := 'A'.toUInt8 ≤ b && b ≤ 'Z'.toUInt8

def isLower (b : UInt8) : Bool := 'a'.toUInt8 ≤ b && b ≤ 'z'.toUInt8

def toLower (b : UInt8) : UInt8 := if isUpper b then b + 0x20 else b

/-- `strings.Cut` の前の部分。 -/
def before (sep : UInt8) (s : List UInt8) : List UInt8 := s.takeWhile (· != sep)

/-- `strings.Cut` の後の部分。 -/
def after (sep : UInt8) (s : List UInt8) : List UInt8 := (s.dropWhile (· != sep)).tail

/-- `strings.LastIndex`。 -/
def lastIndex (b : UInt8) (s : List UInt8) : Option Nat := (s.reverse.idxOf? b).map (s.length - 1 - ·)

/-- `strings.Index`。 -/
def index (w : List UInt8) : List UInt8 → Option Nat
  | [] => if w.isEmpty then some 0 else none
  | b :: s => if w.isPrefixOf (b :: s) then some 0 else (index w s).map (· + 1)

/-! ## エスケープ -/

inductive Encoding where
  | path | userPassword | host | zone | fragment
  deriving DecidableEq

/-- ホストに書けるバイト（`shouldEscape` の否定）。 -/
def hostByte (b : UInt8) : Bool :=
  isLower b || isUpper b || isDigit b || b ∈ utf8 "!$&'()*+,;=:[]<>\"-_.~"

/-- エスケープされたバイト `v` を、その場所に書いてよい。`%25` はいつでもよい。 -/
def mayDecode (mode : Encoding) (v : Nat) : Bool :=
  match mode with
  | .host => v == 0x25 || 0x80 ≤ v
  | .zone => v == 0x25 || v == 0x20 || hostByte (.ofNat v)
  | _ => true

/-- そのままのバイト `b` を、その場所に書いてよい。 -/
def mayAppear (mode : Encoding) (b : UInt8) : Bool :=
  match mode with
  | .host | .zone => 0x80 ≤ b || hostByte b
  | _ => true

def unescape (mode : Encoding) : List UInt8 → Option (List UInt8)
  | [] => some []
  | b :: s =>
      if b = '%'.toUInt8 then
        match s with
        | h :: l :: t => do
            let v := 16 * (← unhex h) + (← unhex l)
            if mayDecode mode v then return .ofNat v :: (← unescape mode t) else none
        | _ => none
      else if mayAppear mode b then (unescape mode s).map (b :: ·)
      else none

/-! ## スキーム -/

/-- `getScheme` の繰り返し。`i` は読んだバイトの数である。 -/
def schemeFrom (rawURL : List UInt8) (i : Nat) : List UInt8 → Option (List UInt8 × List UInt8)
  | [] => some ([], rawURL)
  | b :: s =>
      if isLower b || isUpper b then schemeFrom rawURL (i + 1) s
      else if isDigit b || b ∈ utf8 "+-." then
        if i = 0 then some ([], rawURL) else schemeFrom rawURL (i + 1) s
      else if b = ':'.toUInt8 then
        if i = 0 then none else some (rawURL.take i, s)
      else some ([], rawURL)

/-- スキームと残り。 -/
def getScheme (rawURL : List UInt8) : Option (List UInt8 × List UInt8) := schemeFrom rawURL 0 rawURL

/-! ## ホスト -/

def validOptionalPort : List UInt8 → Bool
  | [] => true
  | b :: s => b == ':'.toUInt8 && s.all isDigit

def userinfoByte (b : UInt8) : Bool :=
  isLower b || isUpper b || isDigit b || b ∈ utf8 "-._:~!$&'()*+,;=%@"

/-- `[` で始まるホスト。範囲の識別子は `%25` から後である。 -/
def parseBracketed (host : List UInt8) : Option (List UInt8) := do
  let i ← lastIndex ']'.toUInt8 host
  if !validOptionalPort (host.drop (i + 1)) then none
  else match index (utf8 "%25") (host.take i) with
    | some zone =>
        return (← unescape .host (host.take zone)) ++ (← unescape .zone ((host.take i).drop zone)) ++
          (← unescape .host (host.drop i))
    | none => unescape .host host

def parseHost (host : List UInt8) : Option (List UInt8) :=
  if host.head? = some '['.toUInt8 then parseBracketed host
  else match lastIndex ':'.toUInt8 host with
    | some i => if validOptionalPort (host.drop i) then unescape .host host else none
    | none => unescape .host host

/-- 利用者の情報。名前と合い言葉のエスケープを調べる。 -/
def validUser (userinfo : List UInt8) : Bool :=
  userinfo.all userinfoByte &&
    if ':'.toUInt8 ∈ userinfo then
      (unescape .userPassword (before ':'.toUInt8 userinfo)).isSome &&
        (unescape .userPassword (after ':'.toUInt8 userinfo)).isSome
    else (unescape .userPassword userinfo).isSome

def parseAuthority (authority : List UInt8) : Option (List UInt8) :=
  match lastIndex '@'.toUInt8 authority with
  | none => parseHost authority
  | some i => do
      let host ← parseHost (authority.drop (i + 1))
      if validUser (authority.take i) then return host else none

/-! ## URL -/

structure URL where
  scheme : List UInt8 := []
  host : List UInt8 := []
  fragment : List UInt8 := []

/-- 制御文字。 -/
def isCTL (b : UInt8) : Bool := b < 0x20 || b == 0x7F

/-- スキームを除き、最初の `?` で切った残りから、ホストとパスを読む。 -/
def parseRest (scheme rest : List UInt8) : Option URL :=
  if rest.head? ≠ some '/'.toUInt8 ∧ scheme ≠ [] then
    -- スラッシュで始まらない残りは、中身を調べない
    return { scheme }
  else if rest.head? ≠ some '/'.toUInt8 ∧ ':'.toUInt8 ∈ before '/'.toUInt8 rest then none
  else if (scheme ≠ [] ∨ !(utf8 "///").isPrefixOf rest) ∧ (utf8 "//").isPrefixOf rest then do
    let host ← parseAuthority (before '/'.toUInt8 (rest.drop 2))
    let _ ← unescape .path ((rest.drop 2).dropWhile (· != '/'.toUInt8))
    return { scheme, host }
  else do
    let _ ← unescape .path rest
    return { scheme }

/-- フラグメントを除いた URL を読む。末尾の一つだけの `?` も、最初の `?` で切ることになる。 -/
def parseWithoutFragment (rawURL : List UInt8) : Option URL :=
  if rawURL.any isCTL then none
  else if rawURL = utf8 "*" then some {}
  else do
    let (scheme, rest) ← getScheme rawURL
    parseRest (scheme.map toLower) (before '?'.toUInt8 rest)

/-- `url.Parse`。エラーは `none` である。 -/
def parse (rawURL : List UInt8) : Option URL := do
  let url ← parseWithoutFragment (before '#'.toUInt8 rawURL)
  if after '#'.toUInt8 rawURL = [] then return url
  else return { url with fragment := ← unescape .fragment (after '#'.toUInt8 rawURL) }

/-- `splitHostPort` のホスト。角括弧は外す。 -/
def URL.hostname (u : URL) : List UInt8 :=
  let host := match lastIndex ':'.toUInt8 u.host with
    | some colon => if validOptionalPort (u.host.drop colon) then u.host.take colon else u.host
    | none => u.host
  if host.head? = some '['.toUInt8 ∧ host.getLast? = some ']'.toUInt8 then (host.drop 1).dropLast else host

/-! ## ホストのある URL -/

/-- スキームに書けるバイト。 -/
def schemeByte (b : UInt8) : Bool := isLower b || isUpper b || isDigit b || b ∈ utf8 "+-."

/-- `://` のあとの、ホストまでの部分。 -/
def authority (r : List UInt8) : List UInt8 := before '/'.toUInt8 (before '?'.toUInt8 r)

theorem before_append {sep : UInt8} {w : List UInt8} (h : sep ∉ w) (s : List UInt8) :
    before sep (w ++ sep :: s) = w := by
  have hw : ∀ b ∈ w, (b != sep) = true := fun b hb => bne_iff_ne.mpr fun he => h (he ▸ hb)
  rw [before, List.takeWhile_append_of_pos hw, List.takeWhile_cons_of_neg (by simp), List.append_nil]

theorem before_of_notMem {sep : UInt8} {s : List UInt8} (h : sep ∉ s) : before sep s = s :=
  List.takeWhile_eq_self_iff.mpr fun _ hb => bne_iff_ne.mpr fun he => h (he ▸ hb)

theorem unescape_ne_nil {mode : Encoding} {b : UInt8} {s t : List UInt8} (h : unescape mode (b :: s) = some t) :
    t ≠ [] := by
  unfold unescape at h
  split_ifs at h with hb hm
  · split at h
    · simp only [Option.bind_eq_bind, Option.bind_eq_some_iff] at h
      obtain ⟨hi, -, lo, -, h⟩ := h
      split_ifs at h
      obtain ⟨rest, -, h⟩ := Option.bind_eq_some_iff.mp h
      cases h
      exact List.cons_ne_nil _ _
    · cases h
  · obtain ⟨rest, -, rfl⟩ := Option.map_eq_some_iff.mp h
    exact List.cons_ne_nil _ _

theorem parse_inv {u : List UInt8} {p : URL} (h : parse u = some p) (hf : p.fragment = []) :
    after '#'.toUInt8 u = [] ∧ ∃ q, parseWithoutFragment (before '#'.toUInt8 u) = some q ∧
      p.scheme = q.scheme ∧ p.host = q.host := by
  simp only [parse, Option.bind_eq_bind, Option.bind_eq_some_iff] at h
  obtain ⟨q, hq, h⟩ := h
  split_ifs at h with he
  · cases h
    exact ⟨he, p, hq, rfl, rfl⟩
  · obtain ⟨fragment, hfragment, h⟩ := Option.bind_eq_some_iff.mp h
    cases h
    obtain ⟨b, s, hs⟩ := List.exists_cons_of_ne_nil he
    rw [hs] at hfragment
    exact absurd hf (unescape_ne_nil hfragment)

theorem schemeFrom_inv {rawURL s scheme rest : List UInt8} {i : Nat} (hi : s = rawURL.drop i)
    (hseen : ∀ b ∈ rawURL.take i, schemeByte b = true) (h : schemeFrom rawURL i s = some (scheme, rest))
    (hne : scheme ≠ []) : rawURL = scheme ++ ':'.toUInt8 :: rest ∧ ∀ b ∈ scheme, schemeByte b = true := by
  induction s generalizing i with
  | nil =>
      simp only [schemeFrom, Option.some.injEq, Prod.mk.injEq] at h
      exact absurd h.1.symm hne
  | cons b s ih =>
      have hnext : s = rawURL.drop (i + 1) := by
        rw [← List.drop_drop, ← hi]
        rfl
      have htake : rawURL.take (i + 1) = rawURL.take i ++ [b] := by
        rw [List.take_add, ← hi]
        rfl
      have hseen' : schemeByte b = true → ∀ b' ∈ rawURL.take (i + 1), schemeByte b' = true := by
        intro hb b' hb'
        rw [htake, List.mem_append, List.mem_singleton] at hb'
        exact hb'.elim (hseen b') fun he => he ▸ hb
      unfold schemeFrom at h
      split_ifs at h with h₁ h₂ h₃ h₄ h₅
      · exact ih hnext (hseen' (by rw [schemeByte, h₁, Bool.true_or, Bool.true_or])) h
      · simp only [Option.some.injEq, Prod.mk.injEq] at h
        exact absurd h.1.symm hne
      · exact ih hnext (hseen' (by rw [schemeByte, Bool.or_assoc, h₂, Bool.or_true])) h
      · simp only [Option.some.injEq, Prod.mk.injEq] at h
        obtain ⟨rfl, rfl⟩ := h
        refine ⟨?_, hseen⟩
        rw [← h₄, hi, List.take_append_drop]
      · simp only [Option.some.injEq, Prod.mk.injEq] at h
        exact absurd h.1.symm hne

theorem getScheme_inv {rawURL scheme rest : List UInt8} (h : getScheme rawURL = some (scheme, rest)) (hne : scheme ≠ []) :
    rawURL = scheme ++ ':'.toUInt8 :: rest ∧ ∀ b ∈ scheme, schemeByte b = true :=
  schemeFrom_inv (by simp) (by simp) h hne

theorem parseRest_inv {scheme rest : List UInt8} {p : URL} (h : parseRest scheme rest = some p) (hhost : p.host ≠ []) :
    p.scheme = scheme ∧ ∃ r, rest = '/'.toUInt8 :: '/'.toUInt8 :: r ∧ before '/'.toUInt8 r ≠ [] := by
  unfold parseRest at h
  split_ifs at h with h₁ h₂ h₃
  · cases h
    exact absurd rfl hhost
  · obtain ⟨host, hauthority, h⟩ := Option.bind_eq_some_iff.mp h
    obtain ⟨path, -, h⟩ := Option.bind_eq_some_iff.mp h
    cases h
    obtain ⟨r, hr⟩ := List.isPrefixOf_iff_prefix.mp h₃.2
    refine ⟨rfl, r, hr.symm, fun he => hhost ?_⟩
    have hdrop : rest.drop 2 = r := by
      rw [← hr]
      rfl
    rw [hdrop, he] at hauthority
    exact (Option.some.inj hauthority).symm
  · obtain ⟨path, -, h⟩ := Option.bind_eq_some_iff.mp h
    cases h
    exact absurd rfl hhost

/-- 始めの `?` の前が `//` で始まるならば、全体も `//` で始まる。 -/
theorem slashes_of_before {rest r : List UInt8} (h : before '?'.toUInt8 rest = '/'.toUInt8 :: '/'.toUInt8 :: r) :
    ∃ r', rest = '/'.toUInt8 :: '/'.toUInt8 :: r' ∧ r = before '?'.toUInt8 r' := by
  obtain ⟨t, ht⟩ := List.takeWhile_prefix (l := rest) (· != '?'.toUInt8)
  have hrest : rest = '/'.toUInt8 :: '/'.toUInt8 :: (r ++ t) := by
    rw [← ht]
    simp only [before] at h
    rw [h]
    rfl
  refine ⟨r ++ t, hrest, ?_⟩
  have hb : before '?'.toUInt8 ('/'.toUInt8 :: '/'.toUInt8 :: (r ++ t)) =
      '/'.toUInt8 :: '/'.toUInt8 :: before '?'.toUInt8 (r ++ t) := rfl
  rw [hrest, hb] at h
  simpa using h.symm

theorem hostname_of_nil {p : URL} (h : p.host = []) : p.hostname = [] := by
  simp [URL.hostname, h, lastIndex]

/-- ホストと空でないスキームを読んだ URL の形。 -/
theorem parse_shape {u : List UInt8} {p : URL} (h : parse u = some p) (hhost : p.hostname ≠ [])
    (hf : p.fragment = []) (hs : p.scheme ≠ []) :
    after '#'.toUInt8 u = [] ∧ (∀ b ∈ before '#'.toUInt8 u, isCTL b = false) ∧ ∃ scheme r,
      before '#'.toUInt8 u = scheme ++ (utf8 "://" ++ r) ∧ p.scheme = scheme.map toLower ∧
      (∀ b ∈ scheme, schemeByte b = true) ∧ authority r ≠ [] := by
  obtain ⟨hafter, q, hq, hscheme, hqhost⟩ := parse_inv h hf
  have hqhost' : q.host ≠ [] := fun he => hhost (hostname_of_nil (hqhost.trans he))
  unfold parseWithoutFragment at hq
  split_ifs at hq with hctl hstar
  · cases hq
    exact absurd rfl hqhost'
  · obtain ⟨⟨scheme, rest⟩, hget, hrest⟩ := Option.bind_eq_some_iff.mp hq
    obtain ⟨hqscheme, r, hr, hauthority⟩ := parseRest_inv hrest hqhost'
    have hne : scheme ≠ [] := by
      rintro rfl
      exact hs (hscheme.trans hqscheme)
    obtain ⟨hu, hbytes⟩ := getScheme_inv hget hne
    obtain ⟨r', rfl, rfl⟩ := slashes_of_before hr
    refine ⟨hafter, ?_, scheme, r', hu, hscheme.trans hqscheme, hbytes, hauthority⟩
    simpa using hctl

end RtcEgress.Lib.NetUrl
