/-
A pretty printer for JSON values that computes, and that no two values share
a text of.  A float is shown by its bits, not by its decimals.
-/
import Kettle.Lib.Hex
import Kettle.Lib.Json

namespace Kettle

namespace JsonPretty

def escapeChar (c : Char) : List Char :=
  if c = '"' then ['\\', '"']
  else if c = '\\' then ['\\', '\\']
  else if c = '\n' then ['\\', 'n']
  else if c = '\r' then ['\\', 'r']
  else if c = '\t' then ['\\', 't']
  else if c.toNat = 8 then ['\\', 'b']
  else if c.toNat = 12 then ['\\', 'f']
  else if c.toNat < 32 then
    ['\\', 'u', '0', '0', LowerHex.digit (c.toNat / 16),
      LowerHex.digit (c.toNat % 16)]
  else [c]

def quoted (text : String) : List Char :=
  '"' :: (text.toList.flatMap escapeChar ++ ['"'])

def numeral : JsonNumber → List Char
  | .integer value _ =>
      if value < 0 then '-' :: Nat.toDigits 10 value.natAbs
      else Nat.toDigits 10 value.natAbs
  | .float bits _ => '~' :: Nat.toDigits 10 bits.toNat

def newline (indent : Nat) : List Char :=
  '\n' :: List.replicate indent ' '

mutual

def value (indent : Nat) : Json → List Char
  | .null => "null".toList
  | .boolean true => "true".toList
  | .boolean false => "false".toList
  | .number number => numeral number
  | .string text => quoted text
  | .array values => '[' :: elements indent true values
  | .object entries => '{' :: members indent true entries

/-- What follows an opening bracket, or an element. -/
def elements (indent : Nat) (first : Bool) : List Json → List Char
  | [] => (if first then [] else newline indent) ++ [']']
  | head :: rest =>
      (if first then [] else [',']) ++ newline (indent + 2) ++
        value (indent + 2) head ++ elements indent false rest

def members (indent : Nat) (first : Bool) : List (String × Json) → List Char
  | [] => (if first then [] else newline indent) ++ ['}']
  | (name, head) :: rest =>
      (if first then [] else [',']) ++ newline (indent + 2) ++ quoted name ++
        [':', ' '] ++ value (indent + 2) head ++ members indent false rest

end

/-- One character of a string, and what follows it. -/
def unescape : List Char → Option (Char × List Char)
  | '\\' :: 'u' :: _ :: _ :: high :: low :: rest =>
      (LowerHex.digitValue high).bind fun h =>
        (LowerHex.digitValue low).map fun l => (Char.ofNat (16 * h + l), rest)
  | '\\' :: c :: rest =>
      if c = 'n' then some ('\n', rest)
      else if c = 'r' then some ('\r', rest)
      else if c = 't' then some ('\t', rest)
      else if c = 'b' then some (Char.ofNat 8, rest)
      else if c = 'f' then some (Char.ofNat 12, rest)
      else some (c, rest)
  | c :: rest => if c = '"' then none else some (c, rest)
  | [] => none

theorem unescape_escapeChar (c : Char) (rest : List Char) :
    unescape (escapeChar c ++ rest) = some (c, rest) := by
  unfold escapeChar
  split_ifs with hquote hslash hnewline hreturn htab hback hfeed hcontrol
  · subst hquote; rfl
  · subst hslash; rfl
  · subst hnewline; rfl
  · subst hreturn; rfl
  · subst htab; rfl
  · have hc : c = Char.ofNat 8 := by rw [← hback, Char.ofNat_toNat]
    subst hc; rfl
  · have hc : c = Char.ofNat 12 := by rw [← hfeed, Char.ofNat_toNat]
    subst hc; rfl
  · have hvalue : 16 * (c.toNat / 16) + c.toNat % 16 = c.toNat :=
      Nat.div_add_mod c.toNat 16
    simp only [List.cons_append, List.nil_append, unescape]
    rw [LowerHex.digitValue_digit (by omega),
      LowerHex.digitValue_digit (by omega)]
    simp only [Option.bind_some, Option.map_some, hvalue, Char.ofNat_toNat]
  · simp [unescape, hquote, hslash]

/-- A quoted string ends at its closing quote. -/
theorem flatMap_escapeChar_append_inj {left right : List Char}
    {leftRest rightRest : List Char}
    (heq : left.flatMap escapeChar ++ '"' :: leftRest =
      right.flatMap escapeChar ++ '"' :: rightRest) :
    left = right ∧ leftRest = rightRest := by
  induction left generalizing right with
  | nil =>
      cases right with
      | nil => simpa using heq
      | cons c rest =>
          have hread := congrArg unescape heq
          rw [List.flatMap_cons, List.append_assoc,
            unescape_escapeChar] at hread
          cases hread
  | cons c left ih =>
      cases right with
      | nil =>
          have hread := congrArg unescape heq
          rw [List.flatMap_cons, List.append_assoc,
            unescape_escapeChar] at hread
          cases hread
      | cons d right =>
          have hread := congrArg unescape heq
          rw [List.flatMap_cons, List.flatMap_cons, List.append_assoc,
            List.append_assoc, unescape_escapeChar,
            unescape_escapeChar] at hread
          obtain ⟨hc, hrest⟩ := Prod.mk.inj (Option.some.inj hread)
          obtain ⟨hleft, hafter⟩ := ih hrest
          exact ⟨by rw [hc, hleft], hafter⟩

theorem quoted_append_inj {left right : String}
    {leftRest rightRest : List Char}
    (heq : quoted left ++ leftRest = quoted right ++ rightRest) :
    left = right ∧ leftRest = rightRest := by
  simp only [quoted, List.cons_append, List.append_assoc, List.nil_append,
    List.cons.injEq, true_and] at heq
  obtain ⟨hlist, hrest⟩ := flatMap_escapeChar_append_inj heq
  exact ⟨String.toList_inj.mp hlist, hrest⟩

/-- What may follow a number. -/
def NoDigit (chars : List Char) : Prop :=
  ∀ c ∈ chars.head?, c.isDigit = false

theorem digits_append_inj {left right : List Char}
    {leftRest rightRest : List Char}
    (hleft : ∀ c ∈ left, c.isDigit = true)
    (hright : ∀ c ∈ right, c.isDigit = true)
    (hleftRest : NoDigit leftRest) (hrightRest : NoDigit rightRest)
    (heq : left ++ leftRest = right ++ rightRest) :
    left = right ∧ leftRest = rightRest := by
  induction left generalizing right with
  | nil =>
      cases right with
      | nil => exact ⟨rfl, heq⟩
      | cons d right =>
          have hdigit := hright d List.mem_cons_self
          rw [List.nil_append] at heq
          subst heq
          rw [hleftRest d (by simp)] at hdigit
          cases hdigit
  | cons c left ih =>
      rw [List.forall_mem_cons] at hleft
      cases right with
      | nil =>
          rw [List.nil_append] at heq
          subst heq
          rw [hrightRest c (by simp)] at hleft
          cases hleft.1
      | cons d right =>
          rw [List.forall_mem_cons] at hright
          simp only [List.cons_append, List.cons.injEq] at heq
          obtain ⟨hlist, hrest⟩ := ih hleft.2 hright.2 heq.2
          exact ⟨by rw [heq.1, hlist], hrest⟩

theorem toDigits_append_inj {left right : Nat}
    {leftRest rightRest : List Char} (hleftRest : NoDigit leftRest)
    (hrightRest : NoDigit rightRest)
    (heq : Nat.toDigits 10 left ++ leftRest =
      Nat.toDigits 10 right ++ rightRest) :
    left = right ∧ leftRest = rightRest := by
  have hdigits : ∀ n : Nat, ∀ c ∈ Nat.toDigits 10 n, c.isDigit = true :=
    fun n c hc => Nat.isDigit_of_mem_toDigits (by decide) (by decide) hc
  obtain ⟨hlist, hrest⟩ := digits_append_inj (hdigits left) (hdigits right)
    hleftRest hrightRest heq
  have hvalue := congrArg (Nat.ofDigitChars 10 · 0) hlist
  simp only [Nat.ofDigitChars_ten_toDigits] at hvalue
  exact ⟨hvalue, hrest⟩

/-- A text of digits starts with one. -/
theorem toDigits_eq_cons (n : Nat) :
    ∃ c rest, Nat.toDigits 10 n = c :: rest ∧ c.isDigit = true := by
  cases hdigits : Nat.toDigits 10 n with
  | nil => exact absurd hdigits Nat.toDigits_ne_nil
  | cons c rest =>
      have hmem : c ∈ Nat.toDigits 10 n := by
        rw [hdigits]
        exact List.mem_cons_self
      exact ⟨c, rest, rfl,
        Nat.isDigit_of_mem_toDigits (by decide) (by decide) hmem⟩

/-- The numeral of an integer: a sign, if it is negative, and digits. -/
theorem integer_append_inj {left right : Int}
    {leftRest rightRest : List Char} (hleftRest : NoDigit leftRest)
    (hrightRest : NoDigit rightRest)
    (heq : (if left < 0 then '-' :: Nat.toDigits 10 left.natAbs
        else Nat.toDigits 10 left.natAbs) ++ leftRest =
      (if right < 0 then '-' :: Nat.toDigits 10 right.natAbs
        else Nat.toDigits 10 right.natAbs) ++ rightRest) :
    left = right ∧ leftRest = rightRest := by
  obtain ⟨c, leftDigits, hleft, hc⟩ := toDigits_eq_cons left.natAbs
  obtain ⟨d, rightDigits, hright, hd⟩ := toDigits_eq_cons right.natAbs
  by_cases hleftNeg : left < 0
  · by_cases hrightNeg : right < 0
    · rw [if_pos hleftNeg, if_pos hrightNeg, List.cons_append,
        List.cons_append, List.cons.injEq] at heq
      obtain ⟨habs, hrest⟩ :=
        toDigits_append_inj hleftRest hrightRest heq.2
      exact ⟨by omega, hrest⟩
    · rw [if_pos hleftNeg, if_neg hrightNeg, hright, List.cons_append,
        List.cons_append, List.cons.injEq] at heq
      rw [← heq.1] at hd
      exact absurd hd (by decide)
  · by_cases hrightNeg : right < 0
    · rw [if_neg hleftNeg, if_pos hrightNeg, hleft, List.cons_append,
        List.cons_append, List.cons.injEq] at heq
      rw [heq.1] at hc
      exact absurd hc (by decide)
    · rw [if_neg hleftNeg, if_neg hrightNeg] at heq
      obtain ⟨habs, hrest⟩ := toDigits_append_inj hleftRest hrightRest heq
      exact ⟨by omega, hrest⟩

/-- No numeral of an integer starts as a float does. -/
theorem integer_ne_float {left : Int} {right : Nat}
    {leftRest rightRest : List Char} :
    (if left < 0 then '-' :: Nat.toDigits 10 left.natAbs
        else Nat.toDigits 10 left.natAbs) ++ leftRest ≠
      '~' :: Nat.toDigits 10 right ++ rightRest := by
  intro heq
  split at heq
  · rw [List.cons_append, List.cons_append, List.cons.injEq] at heq
    exact absurd heq.1 (by decide)
  · obtain ⟨c, rest, hdigits, hc⟩ := toDigits_eq_cons left.natAbs
    rw [hdigits, List.cons_append, List.cons_append, List.cons.injEq] at heq
    rw [heq.1] at hc
    exact absurd hc (by decide)

theorem numeral_append_inj {left right : JsonNumber}
    {leftRest rightRest : List Char} (hleftRest : NoDigit leftRest)
    (hrightRest : NoDigit rightRest)
    (heq : numeral left ++ leftRest = numeral right ++ rightRest) :
    left = right ∧ leftRest = rightRest := by
  cases left with
  | integer leftValue leftRange =>
      cases right with
      | integer rightValue rightRange =>
          obtain ⟨rfl, hrest⟩ :=
            integer_append_inj hleftRest hrightRest heq
          exact ⟨rfl, hrest⟩
      | float bits finite => exact absurd heq integer_ne_float
  | float leftBits leftFinite =>
      cases right with
      | integer rightValue rightRange =>
          exact absurd heq.symm integer_ne_float
      | float rightBits rightFinite =>
          simp only [numeral, List.cons_append, List.cons.injEq,
            true_and] at heq
          obtain ⟨hbits, hrest⟩ :=
            toDigits_append_inj hleftRest hrightRest heq
          obtain rfl := UInt64.toNat_inj.mp hbits
          exact ⟨rfl, hrest⟩

/-- The sort of value that a text starts with. -/
def sortOf (c : Char) : Nat :=
  if c = 'n' then 0
  else if c = 't' then 1
  else if c = 'f' then 2
  else if c = '"' then 3
  else if c = '[' then 4
  else if c = '{' then 5
  else 6

def sort : Json → Nat
  | .null => 0
  | .boolean true => 1
  | .boolean false => 2
  | .string _ => 3
  | .array _ => 4
  | .object _ => 5
  | .number _ => 6

theorem sortOf_digit {c : Char} (hdigit : c.isDigit = true) :
    sortOf c = 6 := by
  unfold sortOf
  split_ifs with h1 h2 h3 h4 h5 h6
  all_goals first | rfl | (subst_vars; exact absurd hdigit (by decide))

theorem value_eq_cons (indent : Nat) (json : Json) :
    ∃ c rest, value indent json = c :: rest ∧ sortOf c = sort json := by
  cases json with
  | null => exact ⟨'n', _, rfl, rfl⟩
  | boolean flag =>
      cases flag with
      | true => exact ⟨'t', _, rfl, rfl⟩
      | false => exact ⟨'f', _, rfl, rfl⟩
  | number number =>
      cases number with
      | integer v range =>
          by_cases hneg : v < 0
          · exact ⟨'-', Nat.toDigits 10 v.natAbs, by simp [value, numeral, hneg], rfl⟩
          · obtain ⟨c, rest, heq, hdigit⟩ := toDigits_eq_cons v.natAbs
            exact ⟨c, rest, by simp [value, numeral, hneg, heq],
              sortOf_digit hdigit⟩
      | float bits finite => exact ⟨'~', _, rfl, rfl⟩
  | string text => exact ⟨'"', _, rfl, rfl⟩
  | array values => exact ⟨'[', elements indent true values, by simp [value], rfl⟩
  | object entries => exact ⟨'{', members indent true entries, by simp [value], rfl⟩

theorem sort_eq_of_value_append {indent : Nat} {left right : Json}
    {leftRest rightRest : List Char}
    (heq : value indent left ++ leftRest = value indent right ++ rightRest) :
    sort left = sort right := by
  obtain ⟨c, leftTail, hleft, hc⟩ := value_eq_cons indent left
  obtain ⟨d, rightTail, hright, hd⟩ := value_eq_cons indent right
  rw [hleft, hright, List.cons_append, List.cons_append,
    List.cons.injEq] at heq
  rw [← hc, ← hd, heq.1]

/-- After an element comes a comma or a new line. -/
theorem noDigit_elements (indent : Nat) (values : List Json)
    (rest : List Char) :
    NoDigit (elements indent false values ++ rest) := by
  cases values <;> simp [NoDigit, elements, newline]

theorem noDigit_members (indent : Nat) (entries : List (String × Json))
    (rest : List Char) :
    NoDigit (members indent false entries ++ rest) := by
  rcases entries with _ | ⟨⟨name, head⟩, tail⟩ <;>
    simp [NoDigit, members, newline]

mutual

/-- A text determines the value that it starts with. -/
theorem value_append_inj (indent : Nat) :
    ∀ (left right : Json) (leftRest rightRest : List Char),
      NoDigit leftRest → NoDigit rightRest →
      value indent left ++ leftRest = value indent right ++ rightRest →
      left = right ∧ leftRest = rightRest
  | .null, right, leftRest, rightRest, _, _, heq => by
      have hsort := sort_eq_of_value_append heq
      cases right with
      | null => exact ⟨rfl, by simpa [value] using heq⟩
      | boolean flag => cases flag <;> cases hsort
      | _ => cases hsort
  | .boolean flag, right, leftRest, rightRest, _, _, heq => by
      have hsort := sort_eq_of_value_append heq
      cases right with
      | boolean other =>
          cases flag <;> cases other <;>
            first
            | exact ⟨rfl, by simpa [value] using heq⟩
            | cases hsort
      | _ => cases flag <;> cases hsort
  | .number number, right, leftRest, rightRest, hleft, hright, heq => by
      have hsort := sort_eq_of_value_append heq
      cases right with
      | number other =>
          obtain ⟨rfl, hrest⟩ := numeral_append_inj hleft hright heq
          exact ⟨rfl, hrest⟩
      | boolean flag => cases flag <;> cases hsort
      | _ => cases hsort
  | .string text, right, leftRest, rightRest, _, _, heq => by
      have hsort := sort_eq_of_value_append heq
      cases right with
      | string other =>
          obtain ⟨rfl, hrest⟩ := quoted_append_inj heq
          exact ⟨rfl, hrest⟩
      | boolean flag => cases flag <;> cases hsort
      | _ => cases hsort
  | .array values, right, leftRest, rightRest, _, _, heq => by
      have hsort := sort_eq_of_value_append heq
      cases right with
      | array others =>
          simp only [value, List.cons_append, List.cons.injEq,
            true_and] at heq
          obtain ⟨hvalues, hrest⟩ :=
            elements_append_inj indent true values others leftRest rightRest
              heq
          exact ⟨by rw [hvalues], hrest⟩
      | boolean flag => cases flag <;> cases hsort
      | _ => cases hsort
  | .object entries, right, leftRest, rightRest, _, _, heq => by
      have hsort := sort_eq_of_value_append heq
      cases right with
      | object others =>
          simp only [value, List.cons_append, List.cons.injEq,
            true_and] at heq
          obtain ⟨hentries, hrest⟩ :=
            members_append_inj indent true entries others leftRest rightRest
              heq
          exact ⟨by rw [hentries], hrest⟩
      | boolean flag => cases flag <;> cases hsort
      | _ => cases hsort

theorem elements_append_inj (indent : Nat) (first : Bool) :
    ∀ (left right : List Json) (leftRest rightRest : List Char),
      elements indent first left ++ leftRest =
        elements indent first right ++ rightRest →
      left = right ∧ leftRest = rightRest
  | [], right, leftRest, rightRest, heq => by
      cases right with
      | nil => cases first <;> simpa [elements, newline] using heq
      | cons head rest =>
          cases first <;> simp [elements, newline] at heq
  | head :: rest, right, leftRest, rightRest, heq => by
      cases right with
      | nil => cases first <;> simp [elements, newline] at heq
      | cons other others =>
          simp only [elements, List.append_assoc,
            List.append_cancel_left_eq] at heq
          obtain ⟨hhead, htail⟩ := value_append_inj (indent + 2) head other
            _ _ (noDigit_elements indent rest leftRest)
            (noDigit_elements indent others rightRest) heq
          obtain ⟨hrest, hafter⟩ := elements_append_inj indent false rest
            others leftRest rightRest htail
          exact ⟨by rw [hhead, hrest], hafter⟩

theorem members_append_inj (indent : Nat) (first : Bool) :
    ∀ (left right : List (String × Json)) (leftRest rightRest : List Char),
      members indent first left ++ leftRest =
        members indent first right ++ rightRest →
      left = right ∧ leftRest = rightRest
  | [], right, leftRest, rightRest, heq => by
      rcases right with _ | ⟨⟨name, head⟩, rest⟩
      · cases first <;> simpa [members, newline] using heq
      · cases first <;> simp [members, newline] at heq
  | (name, head) :: rest, right, leftRest, rightRest, heq => by
      rcases right with _ | ⟨⟨otherName, other⟩, others⟩
      · cases first <;> simp [members, newline] at heq
      · simp only [members, List.append_assoc,
          List.append_cancel_left_eq] at heq
        obtain ⟨hname, hvalue⟩ := quoted_append_inj heq
        rw [List.append_cancel_left_eq] at hvalue
        obtain ⟨hhead, htail⟩ := value_append_inj (indent + 2) head other
          _ _ (noDigit_members indent rest leftRest)
          (noDigit_members indent others rightRest) hvalue
        obtain ⟨hrest, hafter⟩ := members_append_inj indent false rest
          others leftRest rightRest htail
        exact ⟨by rw [hname, hhead, hrest], hafter⟩

end

def utf8 (chars : List Char) : Bytes :=
  (String.ofList chars).toUTF8.data.toList

theorem utf8_injective : Function.Injective utf8 := by
  intro left right heq
  have hbytes : (String.ofList left).toUTF8 = (String.ofList right).toUTF8 :=
    ByteArray.ext (Array.toList_inj.mp heq)
  simpa using congrArg String.toList (String.toByteArray_inj.mp hbytes)

theorem utf8_append (left right : List Char) :
    utf8 (left ++ right) = utf8 left ++ utf8 right := by
  simp [utf8, String.toUTF8]

/-- The text as bytes. -/
def render (json : Json) : Bytes := utf8 (value 0 json)

theorem noDigit_nil : NoDigit [] := by
  simp [NoDigit]

theorem render_injective : Function.Injective render := by
  intro left right heq
  have hchars := utf8_injective heq
  refine (value_append_inj 0 left right [] [] noDigit_nil noDigit_nil ?_).1
  rw [hchars]

/-- A text is not another one with a new line after it. -/
theorem render_ne_append_newline (left right : Json) :
    render left ≠ render right ++ [0x0a] := by
  intro heq
  have hline : ([0x0a] : Bytes) = utf8 ['\n'] := by decide
  rw [hline, render, render, ← utf8_append] at heq
  have hchars : value 0 left ++ [] = value 0 right ++ ['\n'] := by
    rw [List.append_nil]
    exact utf8_injective heq
  have hrest := (value_append_inj 0 left right [] ['\n'] noDigit_nil
    (by simp [NoDigit]) hchars).2
  cases hrest

open Classical in
/-- The value that a text is the text of. -/
noncomputable def readText (bytes : Bytes) : Option Json :=
  if h : ∃ json, Json.Plain 127 json ∧ render json = bytes then
    some h.choose
  else none

theorem readText_render {json : Json} (hplain : Json.Plain 127 json) :
    readText (render json) = some json := by
  have hex : ∃ other, Json.Plain 127 other ∧ render other = render json :=
    ⟨json, hplain, rfl⟩
  unfold readText
  rw [dif_pos hex]
  exact congrArg some (render_injective hex.choose_spec.2)

/-- What a reader takes for the text of a value: the text that is printed,
which a new line may follow. -/
noncomputable def parse (bytes : Bytes) : Option Json :=
  readText bytes <|>
    if bytes.getLast? = some 0x0a then readText bytes.dropLast else none

theorem parse_render {json : Json} (hplain : Json.Plain 127 json) :
    parse (render json) = some json := by
  unfold parse
  rw [readText_render hplain]
  rfl

theorem parse_render_newline {json : Json} (hplain : Json.Plain 127 json) :
    parse (render json ++ [0x0a]) = some json := by
  have hnone : readText (render json ++ [0x0a]) = none := by
    unfold readText
    rw [dif_neg]
    rintro ⟨other, -, heq⟩
    exact render_ne_append_newline other json heq
  unfold parse
  rw [hnone, List.getLast?_concat, List.dropLast_concat,
    readText_render hplain]
  rfl

noncomputable def text : JsonText where
  render := render
  parse := parse
  render_injective := render_injective
  parse_render := fun _ => parse_render

end JsonPretty

end Kettle
