import Ephor.Foundation.Text

/-!
# URLs of the web

How a URL string is read against an http or https base, up to the host: the parser of the WHATWG
URL standard with its states for these two schemes.  The path, the query and the fragment never
make it fail and are left out.  The parser of a host and what becomes of other schemes are
parameters.
-/

namespace Ephor
namespace Foundation
namespace WebUrl

open Text

inductive Scheme where
  | http
  | https
deriving DecidableEq

def Scheme.name : Scheme -> List Char
  | Scheme.http => ['h', 't', 't', 'p']
  | Scheme.https => ['h', 't', 't', 'p', 's']

def Scheme.defaultPort : Scheme -> Nat
  | Scheme.http => 80
  | Scheme.https => 443

def Scheme.ofName (name : List Char) : Option Scheme :=
  if name = Scheme.http.name then some Scheme.http
  else if name = Scheme.https.name then some Scheme.https
  else none

/-- `protocol` without its colon, `host` and `origin` of a URL. -/
structure Url where
  protocol : List Char
  host : List Char
  origin : List Char
deriving DecidableEq

def isBlank (c : Char) : Bool :=
  c.toNat <= 0x20

def isTabOrNewline (c : Char) : Bool :=
  c == '\t' || c == '\n' || c == '\r'

def isSlash (c : Char) : Bool :=
  c == '/' || c == '\\'

def endsAuthority (c : Char) : Bool :=
  isSlash c || c == '?' || c == '#'

def isSchemeChar (c : Char) : Bool :=
  c.isAlphanum || c == '+' || c == '-' || c == '.'

/-- The parser of hosts and what the other schemes make of the text after their colon, the host
and the origin.  A host with a C0 control or a space in it is none. -/
structure Hosts where
  parse : List Char -> Option (List Char)
  parse_blank : forall {text : List Char} {c : Char}, c ∈ text -> isBlank c = true ->
    parse text = none
  other : List Char -> List Char -> Option (List Char × List Char)

/-- The URL that others are read against: its scheme, and its host with the port. -/
structure Base where
  scheme : Scheme
  host : List Char
deriving DecidableEq

def httpUrl (scheme : Scheme) (host : List Char) : Url where
  protocol := scheme.name
  host := host
  origin := scheme.name ++ [':', '/', '/'] ++ host

def Base.url (base : Base) : Url :=
  httpUrl base.scheme base.host

/-- Without the blanks in front and without tabs and line ends. -/
def leading (input : List Char) : List Char :=
  (input.dropWhile isBlank).filter fun c => !isTabOrNewline c

def cleaned (input : List Char) : List Char :=
  ((input.dropWhile isBlank).rdropWhile isBlank).filter fun c => !isTabOrNewline c

/-- The scheme, in lower case, and what follows its colon. -/
def splitScheme (text : List Char) : Option (List Char × List Char) :=
  if (text.head?.map Char.isAlpha).getD false then
    match text.dropWhile isSchemeChar with
    | ':' :: rest => some (lower (text.takeWhile isSchemeChar), rest)
    | _ => none
  else
    none

/-- The host and, after the first colon outside brackets, the port. -/
def splitPort : Bool -> List Char -> List Char × Option (List Char)
  | _, [] => ([], none)
  | inside, c :: text =>
      if c = ':' ∧ inside = false then
        ([], some text)
      else
        let inside := if c = '[' then true else if c = ']' then false else inside
        let parts := splitPort inside text
        (c :: parts.1, parts.2)

/-- What the port adds to the host: nothing when it is missing or the default. -/
def parsePort (scheme : Scheme) (digits : List Char) : Option (List Char) :=
  if digits = [] then
    some []
  else
    match digitsValue digits with
    | none => none
    | some n =>
        if 65535 < n then none
        else if n = scheme.defaultPort then some []
        else some (':' :: Nat.toDigits 10 n)

def afterCredentials (authority : List Char) : List Char :=
  ((rsplitOnce '@' authority).map Prod.snd).getD authority

section Parse

variable (hosts : Hosts)

def parseHost (scheme : Scheme) (text : List Char) : Option (List Char) :=
  let parts := splitPort false text
  if parts.1 = [] then
    none
  else do
    let host <- hosts.parse parts.1
    let port <- parsePort scheme (parts.2.getD [])
    some (host ++ port)

def parseAuthority (scheme : Scheme) (text : List Char) : Option Url :=
  let authority := (text.dropWhile isSlash).takeWhile fun c => !endsAuthority c
  (parseHost hosts scheme (afterCredentials authority)).map (httpUrl scheme)

/-- Two slashes start an authority; anything else stays at the host of the base. -/
def parseRelative (base : Base) : List Char -> Option Url
  | c :: d :: text =>
      if isSlash c && isSlash d then parseAuthority hosts base.scheme text else some base.url
  | _ => some base.url

def parseScheme (base : Base) (name text : List Char) : Option Url :=
  match Scheme.ofName name with
  | some scheme =>
      -- Of the base's own scheme, a reference without two slashes is relative.
      if scheme = base.scheme then parseRelative hosts base text
      else parseAuthority hosts scheme text
  | none => (hosts.other name text).map fun found => ⟨name, found.1, found.2⟩

def parseCleaned (base : Base) (text : List Char) : Option Url :=
  match splitScheme text with
  | some (name, rest) => parseScheme hosts base name rest
  | none => parseRelative hosts base text

/-- `new URL(input, base)`. -/
def parse (base : Base) (input : List Char) : Option Url :=
  parseCleaned hosts base (cleaned input)

end Parse

/-!
# A path appended

Appending a path to a URL string keeps the URL where it was, or makes it none, unless what the
path is appended to is a lone slash.
-/

/-- A path that starts with one slash, of characters that every position keeps. -/
structure PlainPath (path : List Char) : Prop where
  slash : exists c rest, path = '/' :: c :: rest ∧ isSlash c = false
  plain : forall c, c ∈ path -> isBlank c = false

def loneSlash (text : List Char) : Bool :=
  match text with
  | [c] => isSlash c
  | _ => false

def bareSlash (base : Base) (input : List Char) : Bool :=
  match splitScheme (leading input) with
  | some (name, rest) => Scheme.ofName name == some base.scheme && loneSlash rest
  | none => loneSlash (leading input)

variable {c : Char} {text blanks path : List Char} {u : Url} {base : Base}

theorem isBlank_of_tabOrNewline (h : isTabOrNewline c = true) : isBlank c = true := by
  simp only [isTabOrNewline, Bool.or_eq_true, beq_iff_eq] at h
  rcases h with (h | h) | h <;> rw [h] <;> decide

theorem ne_of_isBlank {d : Char} (hc : isBlank c = true) (hd : isBlank d = false) : c ≠ d := by
  intro h
  rw [h, hd] at hc
  cases hc

theorem isSlash_of_isBlank (h : isBlank c = true) : isSlash c = false := by
  simp only [isSlash, Bool.or_eq_false_iff, beq_eq_false_iff_ne]
  exact ⟨ne_of_isBlank h (by decide), ne_of_isBlank h (by decide)⟩

theorem endsAuthority_of_isBlank (h : isBlank c = true) : endsAuthority c = false := by
  simp only [endsAuthority, Bool.or_eq_false_iff, beq_eq_false_iff_ne]
  exact ⟨⟨isSlash_of_isBlank h, ne_of_isBlank h (by decide)⟩, ne_of_isBlank h (by decide)⟩

theorem isAlphanum_of_isBlank (h : isBlank c = true) : c.isAlphanum = false := by
  have hle : c.toNat <= 0x20 := of_decide_eq_true h
  cases halphanum : c.isAlphanum with
  | false => rfl
  | true =>
      have hlow := (isAlphanum_bounds halphanum).1
      omega

theorem isSchemeChar_of_isBlank (h : isBlank c = true) : isSchemeChar c = false := by
  simp only [isSchemeChar, Bool.or_eq_false_iff, beq_eq_false_iff_ne]
  exact ⟨⟨⟨isAlphanum_of_isBlank h, ne_of_isBlank h (by decide)⟩, ne_of_isBlank h (by decide)⟩,
    ne_of_isBlank h (by decide)⟩

theorem isDigit_of_isBlank (h : isBlank c = true) : c.isDigit = false := by
  have halphanum := isAlphanum_of_isBlank h
  rw [Char.isAlphanum, Bool.or_eq_false_iff] at halphanum
  exact halphanum.2

/-- The first character of what is appended is one that no scheme continues with. -/
def StopsScheme (tail : List Char) : Prop :=
  forall c, tail.head? = some c -> isSchemeChar c = false ∧ c ≠ ':'

theorem isAlpha_of_not_schemeChar (h : isSchemeChar c = false) : c.isAlpha = false := by
  simp only [isSchemeChar, Bool.or_eq_false_iff, Char.isAlphanum] at h
  exact h.1.1.1.1

theorem splitScheme_of_stops {tail : List Char} (htail : StopsScheme tail) :
    splitScheme tail = none := by
  cases tail with
  | nil => rfl
  | cons c rest =>
      have hc := isAlpha_of_not_schemeChar (htail c rfl).1
      rw [splitScheme, List.head?_cons, Option.map_some, Option.getD_some, hc,
        if_neg Bool.false_ne_true]

theorem dropWhile_of_stops {tail : List Char} (htail : StopsScheme tail) :
    tail.dropWhile isSchemeChar = tail := by
  cases tail with
  | nil => rfl
  | cons c rest =>
      rw [List.dropWhile_cons, (htail c rfl).1]
      rfl

theorem splitScheme_append {tail : List Char} (htail : StopsScheme tail) :
    splitScheme (text ++ tail) =
      (splitScheme text).map fun parts => (parts.1, parts.2 ++ tail) := by
  cases text with
  | nil => exact splitScheme_of_stops htail
  | cons c rest =>
      rw [splitScheme, splitScheme, List.cons_append, List.head?_cons, List.head?_cons,
        <- List.cons_append, List.dropWhile_append, List.takeWhile_append]
      split
      · cases hdrop : (c :: rest).dropWhile isSchemeChar with
        | nil =>
            -- Every character belongs to a scheme, and no colon follows.
            rw [List.isEmpty_nil, if_pos rfl, dropWhile_of_stops htail]
            cases tail with
            | nil => rfl
            | cons d more =>
                have hcolon := (htail d rfl).2
                split
                · rename_i heq
                  injection heq with hd _
                  exact absurd hd hcolon
                · rfl
        | cons d more =>
            have hlength : Not (((c :: rest).takeWhile isSchemeChar).length =
                (c :: rest).length) := by
              have hall := congrArg List.length
                (@List.takeWhile_append_dropWhile Char isSchemeChar (c :: rest))
              rw [hdrop, List.length_append, List.length_cons] at hall
              omega
            rw [List.isEmpty_cons, if_neg Bool.false_ne_true, if_neg hlength, List.cons_append]
            by_cases hcolon : d = ':'
            · rw [hcolon]
              rfl
            · split
              · rename_i heq
                injection heq with hd _
                exact absurd hd hcolon
              · split
                · rename_i heq
                  injection heq with hd _
                  exact absurd hd hcolon
                · rfl
      · rfl

/-!
# The authority
-/

theorem splitPort_append (hblanks : forall c, c ∈ blanks -> isBlank c = true) (inside : Bool)
    (text : List Char) :
    splitPort inside (text ++ blanks) =
      ((splitPort inside text).2.elim ((splitPort inside text).1 ++ blanks)
        fun _ => (splitPort inside text).1, (splitPort inside text).2.map (· ++ blanks)) := by
  induction text generalizing inside with
  | nil =>
      rw [List.nil_append, splitPort]
      change splitPort inside blanks = ([] ++ blanks, none)
      induction blanks with
      | nil => rfl
      | cons c blanks ih =>
          have hc := hblanks c List.mem_cons_self
          have hcolon : Not (c = ':' ∧ inside = false) :=
            fun h => ne_of_isBlank hc (by decide) h.1
          have hopen : Not (c = '[') := ne_of_isBlank hc (by decide)
          have hclose : Not (c = ']') := ne_of_isBlank hc (by decide)
          rw [splitPort, if_neg hcolon]
          simp only [if_neg hopen, if_neg hclose]
          rw [ih (List.forall_mem_cons.mp hblanks).2]
          rfl
  | cons c text ih =>
      rw [List.cons_append, splitPort, splitPort]
      split
      · rfl
      · simp only [ih]
        cases (splitPort (if c = '[' then true else if c = ']' then false else inside) text).2 with
        | none | some port => rfl

theorem parsePort_blanks (hblanks : forall c, c ∈ blanks -> isBlank c = true)
    (hne : blanks ≠ []) (scheme : Scheme) (digits : List Char) :
    parsePort scheme (digits ++ blanks) = none := by
  rcases List.exists_mem_of_ne_nil blanks hne with ⟨c, hc⟩
  have hall : Not ((digits ++ blanks).all Char.isDigit = true) := by
    intro hall
    have hdigit := List.all_eq_true.mp hall c (List.mem_append_right digits hc)
    rw [isDigit_of_isBlank (hblanks c hc)] at hdigit
    cases hdigit
  have hlong := List.append_ne_nil_of_right_ne_nil digits hne
  have hvalue : digitsValue (digits ++ blanks) = none := by
    cases htext : digits ++ blanks with
    | nil => rfl
    | cons d more =>
        rw [htext] at hall
        exact if_neg hall
  rw [parsePort, if_neg hlong, hvalue]

variable {hosts : Hosts}

theorem parseHost_blanks (hblanks : forall c, c ∈ blanks -> isBlank c = true)
    (hne : blanks ≠ []) (scheme : Scheme) (text : List Char) :
    parseHost hosts scheme (text ++ blanks) = none := by
  rw [parseHost, splitPort_append hblanks]
  cases (splitPort false text).2 with
  | none =>
      rcases List.exists_mem_of_ne_nil blanks hne with ⟨c, hc⟩
      have hparse := hosts.parse_blank (List.mem_append_right (splitPort false text).1 hc)
        (hblanks c hc)
      simp [hparse]
  | some port =>
      simp [parsePort_blanks hblanks hne]

theorem afterCredentials_append (hblanks : forall c, c ∈ blanks -> isBlank c = true)
    (text : List Char) : afterCredentials (text ++ blanks) = afterCredentials text ++ blanks := by
  have hat : '@' ∉ blanks :=
    fun hmem => ne_of_isBlank (hblanks '@' hmem) (by decide) rfl
  rw [afterCredentials, afterCredentials, rsplitOnce_append hat]
  cases rsplitOnce '@' text with
  | none | some parts => rfl

structure Appended (blanks path : List Char) : Prop where
  blank : forall c, c ∈ blanks -> isBlank c = true
  path : PlainPath path

theorem parseAuthority_append (h : Appended blanks path) {scheme : Scheme}
    (hu : parseAuthority hosts scheme text = some u) :
    parseAuthority hosts scheme (text ++ (blanks ++ path)) = none ∨
      parseAuthority hosts scheme (text ++ (blanks ++ path)) = some u := by
  have hnil : afterCredentials [] = [] := rfl
  have hhost : parseHost hosts scheme [] = none := rfl
  have hdrop : text.dropWhile isSlash ≠ [] := by
    intro hempty
    rw [parseAuthority, hempty, List.takeWhile_nil, hnil, hhost] at hu
    cases hu
  have hslashes : (text ++ (blanks ++ path)).dropWhile isSlash =
      text.dropWhile isSlash ++ (blanks ++ path) := by
    rw [List.dropWhile_append, if_neg]
    rw [List.isEmpty_iff]
    exact hdrop
  have htail : (blanks ++ path).takeWhile (fun c => !endsAuthority c) = blanks := by
    rcases h.path.slash with ⟨c, rest, hpath, _⟩
    rw [List.takeWhile_append_of_pos, hpath]
    · change blanks ++ [] = blanks
      exact List.append_nil blanks
    · intro d hd
      rw [endsAuthority_of_isBlank (h.blank d hd)]
      rfl
  rw [parseAuthority, hslashes, List.takeWhile_append]
  split
  · -- The authority goes on into the blanks.
    rename_i hlength
    rw [htail]
    by_cases hblanks : blanks = []
    · apply Or.inr
      rw [hblanks, List.append_nil]
      rw [parseAuthority, (List.takeWhile_prefix _).eq_of_length hlength] at hu
      exact hu
    · apply Or.inl
      rw [afterCredentials_append h.blank, parseHost_blanks h.blank hblanks]
      rfl
  · exact Or.inr hu

theorem parseRelative_first (hc : isSlash c = false) (text : List Char) :
    parseRelative hosts base (c :: text) = some base.url := by
  cases text with
  | nil => rfl
  | cons d text => rw [parseRelative, hc, Bool.false_and, if_neg Bool.false_ne_true]

theorem parseRelative_second {d : Char} (hd : isSlash d = false) (c : Char) (text : List Char) :
    parseRelative hosts base (c :: d :: text) = some base.url := by
  rw [parseRelative, hd, Bool.and_false, if_neg Bool.false_ne_true]

theorem parseRelative_append (h : Appended blanks path)
    (hu : parseRelative hosts base text = some u) (hlone : loneSlash (text ++ blanks) = false) :
    parseRelative hosts base (text ++ (blanks ++ path)) = none ∨
      parseRelative hosts base (text ++ (blanks ++ path)) = some u := by
  rcases h.path.slash with ⟨c, rest, hpath, hc⟩
  cases text with
  | nil =>
      apply Or.inr
      cases hu
      cases blanks with
      | nil =>
          rw [hpath]
          exact parseRelative_second hc '/' rest
      | cons b blanks =>
          exact parseRelative_first (isSlash_of_isBlank (h.blank b List.mem_cons_self)) _
  | cons x text =>
      cases text with
      | nil =>
          apply Or.inr
          cases hu
          cases blanks with
          | nil => exact parseRelative_first hlone _
          | cons b blanks =>
              exact parseRelative_second (isSlash_of_isBlank (h.blank b List.mem_cons_self)) x _
      | cons y text =>
          rw [List.cons_append, List.cons_append]
          rw [parseRelative] at hu ⊢
          split
          · rename_i hslashes
            rw [if_pos hslashes] at hu
            exact parseAuthority_append h hu
          · rename_i hslashes
            rw [if_neg hslashes] at hu
            exact Or.inr hu

/-- Where a URL that is read from the appended text leads. -/
def SamePlace (u v : Url) : Prop :=
  v = u ∨ (v.protocol = u.protocol ∧ Scheme.ofName v.protocol = none)

theorem samePlace_of_eq {v : Url} {read : Option Url} (h : read = none ∨ read = some u)
    (hv : read = some v) : SamePlace u v := by
  rcases h with hnone | hsome
  · rw [hnone] at hv
    cases hv
  · rw [hsome] at hv
    injection hv with heq
    exact Or.inl heq.symm

theorem parseScheme_append (h : Appended blanks path) {name : List Char} {v : Url}
    (hu : parseScheme hosts base name text = some u)
    (hlone : Scheme.ofName name = some base.scheme -> loneSlash (text ++ blanks) = false)
    (hv : parseScheme hosts base name (text ++ (blanks ++ path)) = some v) : SamePlace u v := by
  rw [parseScheme] at hu hv
  cases hname : Scheme.ofName name with
  | none =>
      simp only [hname] at hu hv
      rcases Option.map_eq_some_iff.mp hu with ⟨found, _, hfound⟩
      rcases Option.map_eq_some_iff.mp hv with ⟨found', _, hfound'⟩
      rw [<- hfound, <- hfound']
      exact Or.inr ⟨rfl, hname⟩
  | some scheme =>
      simp only [hname] at hu hv
      split at hu
      · rename_i hscheme
        rw [if_pos hscheme] at hv
        rw [hname, hscheme] at hlone
        exact samePlace_of_eq (parseRelative_append h hu (hlone rfl)) hv
      · rename_i hscheme
        rw [if_neg hscheme] at hv
        exact samePlace_of_eq (parseAuthority_append h hu) hv

/-!
# The input
-/

theorem cleaned_append (h : PlainPath path) (input : List Char) :
    cleaned (input ++ path) = leading input ++ path := by
  rcases h.slash with ⟨c, rest, hpath, _⟩
  have hne : path ≠ [] := by
    rw [hpath]
    exact List.cons_ne_nil _ _
  have hfront : path.dropWhile isBlank = path := by
    rw [hpath]
    rfl
  have hdrop : (input ++ path).dropWhile isBlank = input.dropWhile isBlank ++ path := by
    rw [List.dropWhile_append, hfront]
    split
    · rename_i hempty
      rw [List.isEmpty_iff.mp hempty, List.nil_append]
    · rfl
  have hend : (input.dropWhile isBlank ++ path).rdropWhile isBlank =
      input.dropWhile isBlank ++ path := by
    rw [List.rdropWhile_eq_self_iff]
    intro hlong
    rw [List.getLast_append_of_ne_nil hlong hne, h.plain _ (List.getLast_mem hne)]
    exact Bool.false_ne_true
  have hkept : (path.filter fun c => !isTabOrNewline c) = path := by
    rw [List.filter_eq_self]
    intro d hd
    cases htab : isTabOrNewline d with
    | false => rfl
    | true =>
        have hblank := isBlank_of_tabOrNewline htab
        rw [h.plain d hd] at hblank
        cases hblank
  rw [cleaned, hdrop, hend, List.filter_append, hkept]
  rfl

theorem leading_eq (input : List Char) :
    exists blanks, leading input = cleaned input ++ blanks ∧
      forall c, c ∈ blanks -> isBlank c = true := by
  refine ⟨((input.dropWhile isBlank).rtakeWhile isBlank).filter fun c => !isTabOrNewline c, ?_, ?_⟩
  · rw [leading, cleaned, <- List.filter_append, List.rdropWhile_append_rtakeWhile]
  · intro c hc
    exact List.mem_rtakeWhile_imp (List.mem_of_mem_filter hc)

theorem stopsScheme_of_blanks (h : forall c, c ∈ blanks -> isBlank c = true) :
    StopsScheme blanks := by
  intro c hc
  have hblank := h c (List.mem_of_mem_head? hc)
  exact ⟨isSchemeChar_of_isBlank hblank, ne_of_isBlank hblank (by decide)⟩

theorem stopsScheme_of_appended (h : Appended blanks path) : StopsScheme (blanks ++ path) := by
  cases blanks with
  | nil =>
      rcases h.path.slash with ⟨c, rest, hpath, _⟩
      rw [hpath]
      intro d hd
      cases hd
      decide
  | cons b blanks =>
      intro c hc
      cases hc
      exact stopsScheme_of_blanks h.blank b rfl

theorem parse_append {input : List Char} {v : Url} (hpath : PlainPath path)
    (hu : parse hosts base input = some u) (hbare : bareSlash base input = false)
    (hv : parse hosts base (input ++ path) = some v) : SamePlace u v := by
  rcases leading_eq input with ⟨blanks, hleading, hblank⟩
  have h : Appended blanks path := ⟨hblank, hpath⟩
  rw [parse, cleaned_append hpath, hleading, List.append_assoc, parseCleaned,
    splitScheme_append (stopsScheme_of_appended h)] at hv
  rw [parse, parseCleaned] at hu
  rw [bareSlash, hleading, splitScheme_append (stopsScheme_of_blanks hblank)] at hbare
  cases hsplit : splitScheme (cleaned input) with
  | none =>
      simp only [hsplit, Option.map_none] at hu hv hbare
      exact samePlace_of_eq (parseRelative_append h hu hbare) hv
  | some parts =>
      simp only [hsplit, Option.map_some] at hu hv hbare
      apply parseScheme_append h hu _ hv
      intro hname
      rw [hname, beq_self_eq_true, Bool.true_and] at hbare
      exact hbare

end WebUrl
end Foundation
end Ephor
