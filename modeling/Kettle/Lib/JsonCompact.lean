/-
A printer of JSON values on one line, without spaces.  No two values share a
text, and no text holds a control character, whatever the strings hold.
-/
import Kettle.Lib.JsonPretty
import Kettle.Lib.Utf8

namespace Kettle

namespace JsonCompact

open JsonPretty (NoDigit escapeChar numeral quoted sort sortOf utf8)

mutual

def value : Json → List Char
  | .null => "null".toList
  | .boolean true => "true".toList
  | .boolean false => "false".toList
  | .number number => numeral number
  | .string text => quoted text
  | .array values => '[' :: elements true values
  | .object entries => '{' :: members true entries

def elements (first : Bool) : List Json → List Char
  | [] => [']']
  | head :: rest =>
      (if first then [] else [',']) ++ value head ++ elements false rest

def members (first : Bool) : List (String × Json) → List Char
  | [] => ['}']
  | (name, head) :: rest =>
      (if first then [] else [',']) ++ quoted name ++ ':' :: value head ++
        members false rest

end

def render (json : Json) : Bytes := utf8 (value json)

section Injective

/-- A value does not begin like the end of an array. -/
theorem value_eq_cons (json : Json) :
    ∃ c rest, value json = c :: rest ∧ sortOf c = sort json ∧ c ≠ ']' := by
  cases json with
  | null => exact ⟨'n', _, rfl, rfl, by decide⟩
  | boolean flag =>
      cases flag with
      | true => exact ⟨'t', _, rfl, rfl, by decide⟩
      | false => exact ⟨'f', _, rfl, rfl, by decide⟩
  | number number =>
      cases number with
      | integer v range =>
          obtain ⟨c, rest, heq, hdigit⟩ := JsonPretty.toDigits_eq_cons v.natAbs
          by_cases hneg : v < 0
          · exact ⟨'-', _, by simp [value, numeral, hneg]; rfl, rfl,
              by decide⟩
          · exact ⟨c, rest, by simp [value, numeral, hneg, heq],
              JsonPretty.sortOf_digit hdigit,
              fun hc => absurd (hc ▸ hdigit) (by decide)⟩
      | float bits finite => exact ⟨'~', _, rfl, rfl, by decide⟩
  | string text => exact ⟨'"', _, rfl, rfl, by decide⟩
  | array values =>
      exact ⟨'[', elements true values, by simp [value], rfl, by decide⟩
  | object entries =>
      exact ⟨'{', members true entries, by simp [value], rfl, by decide⟩

theorem sort_eq_of_value_append {left right : Json}
    {leftRest rightRest : List Char}
    (heq : value left ++ leftRest = value right ++ rightRest) :
    sort left = sort right := by
  obtain ⟨c, leftTail, hleft, hc, -⟩ := value_eq_cons left
  obtain ⟨d, rightTail, hright, hd, -⟩ := value_eq_cons right
  rw [hleft, hright, List.cons_append, List.cons_append,
    List.cons.injEq] at heq
  rw [← hc, ← hd, heq.1]

theorem value_append_ne_close (json : Json) (leftRest rightRest : List Char) :
    value json ++ leftRest ≠ ']' :: rightRest := by
  obtain ⟨c, rest, hvalue, -, hclose⟩ := value_eq_cons json
  rw [hvalue, List.cons_append, ne_eq, List.cons.injEq]
  exact fun heq => hclose heq.1

/-- After an element comes a comma or a bracket. -/
theorem noDigit_elements (values : List Json) (rest : List Char) :
    NoDigit (elements false values ++ rest) := by
  cases values <;> simp [NoDigit, elements]

theorem noDigit_members (entries : List (String × Json))
    (rest : List Char) : NoDigit (members false entries ++ rest) := by
  rcases entries with _ | ⟨⟨name, head⟩, tail⟩ <;> simp [NoDigit, members]

/-- Values whose texts start alike are of one constructor. -/
inductive Alike : Json → Json → Prop
  | null : Alike .null .null
  | boolean (flag : Bool) : Alike (.boolean flag) (.boolean flag)
  | number (left right : JsonNumber) : Alike (.number left) (.number right)
  | string (left right : String) : Alike (.string left) (.string right)
  | array (left right : List Json) : Alike (.array left) (.array right)
  | object (left right : List (String × Json)) :
      Alike (.object left) (.object right)

theorem alike_of_value_append {left right : Json}
    {leftRest rightRest : List Char}
    (heq : value left ++ leftRest = value right ++ rightRest) :
    Alike left right := by
  have hsort := sort_eq_of_value_append heq
  cases left with
  | null =>
      cases right with
      | null => exact .null
      | boolean flag => cases flag <;> cases hsort
      | _ => cases hsort
  | boolean flag =>
      cases right with
      | boolean other =>
          cases flag <;> cases other <;>
            first | exact .boolean _ | cases hsort
      | _ => cases flag <;> cases hsort
  | number number =>
      cases right with
      | number other => exact .number number other
      | boolean flag => cases flag <;> cases hsort
      | _ => cases hsort
  | string text =>
      cases right with
      | string other => exact .string text other
      | boolean flag => cases flag <;> cases hsort
      | _ => cases hsort
  | array values =>
      cases right with
      | array others => exact .array values others
      | boolean flag => cases flag <;> cases hsort
      | _ => cases hsort
  | object entries =>
      cases right with
      | object others => exact .object entries others
      | boolean flag => cases flag <;> cases hsort
      | _ => cases hsort

mutual

/-- A text determines the value that it starts with. -/
theorem value_append_inj :
    ∀ (left right : Json) (leftRest rightRest : List Char),
      NoDigit leftRest → NoDigit rightRest →
      value left ++ leftRest = value right ++ rightRest →
      left = right ∧ leftRest = rightRest
  | .null, right, leftRest, rightRest, _, _, heq => by
      cases alike_of_value_append heq
      exact ⟨rfl, by simpa [value] using heq⟩
  | .boolean flag, right, leftRest, rightRest, _, _, heq => by
      cases alike_of_value_append heq
      exact ⟨rfl, by cases flag <;> simpa [value] using heq⟩
  | .number number, right, leftRest, rightRest, hleft, hright, heq => by
      cases alike_of_value_append heq
      obtain ⟨rfl, hrest⟩ := JsonPretty.numeral_append_inj hleft hright heq
      exact ⟨rfl, hrest⟩
  | .string text, right, leftRest, rightRest, _, _, heq => by
      cases alike_of_value_append heq
      obtain ⟨rfl, hrest⟩ := JsonPretty.quoted_append_inj heq
      exact ⟨rfl, hrest⟩
  | .array values, right, leftRest, rightRest, _, _, heq => by
      cases alike_of_value_append heq with
      | array _ others =>
          simp only [value, List.cons_append, List.cons.injEq,
            true_and] at heq
          obtain ⟨hvalues, hrest⟩ :=
            elements_append_inj true values others leftRest rightRest heq
          exact ⟨by rw [hvalues], hrest⟩
  | .object entries, right, leftRest, rightRest, _, _, heq => by
      cases alike_of_value_append heq with
      | object _ others =>
          simp only [value, List.cons_append, List.cons.injEq,
            true_and] at heq
          obtain ⟨hentries, hrest⟩ :=
            members_append_inj true entries others leftRest rightRest heq
          exact ⟨by rw [hentries], hrest⟩

theorem elements_append_inj (first : Bool) :
    ∀ (left right : List Json) (leftRest rightRest : List Char),
      elements first left ++ leftRest = elements first right ++ rightRest →
      left = right ∧ leftRest = rightRest
  | [], right, leftRest, rightRest, heq => by
      cases right with
      | nil => exact ⟨rfl, by simpa [elements] using heq⟩
      | cons head rest =>
          cases first with
          | true =>
              simp only [elements, if_true, List.nil_append,
                List.cons_append, List.append_assoc] at heq
              exact absurd heq.symm (value_append_ne_close head _ leftRest)
          | false => simp [elements] at heq
  | head :: rest, right, leftRest, rightRest, heq => by
      cases right with
      | nil =>
          cases first with
          | true =>
              simp only [elements, if_true, List.nil_append,
                List.cons_append, List.append_assoc] at heq
              exact absurd heq (value_append_ne_close head _ rightRest)
          | false => simp [elements] at heq
      | cons other others =>
          simp only [elements, List.append_assoc,
            List.append_cancel_left_eq] at heq
          obtain ⟨hhead, htail⟩ := value_append_inj head other _ _
            (noDigit_elements rest leftRest)
            (noDigit_elements others rightRest) heq
          obtain ⟨hrest, hafter⟩ := elements_append_inj false rest others
            leftRest rightRest htail
          exact ⟨by rw [hhead, hrest], hafter⟩

theorem members_append_inj (first : Bool) :
    ∀ (left right : List (String × Json)) (leftRest rightRest : List Char),
      members first left ++ leftRest = members first right ++ rightRest →
      left = right ∧ leftRest = rightRest
  | [], right, leftRest, rightRest, heq => by
      rcases right with _ | ⟨⟨name, head⟩, rest⟩
      · exact ⟨rfl, by simpa [members] using heq⟩
      · cases first <;> simp [members, quoted] at heq
  | (name, head) :: rest, right, leftRest, rightRest, heq => by
      rcases right with _ | ⟨⟨otherName, other⟩, others⟩
      · cases first <;> simp [members, quoted] at heq
      · simp only [members, List.append_assoc, List.cons_append,
          List.append_cancel_left_eq] at heq
        obtain ⟨hname, hvalue⟩ := JsonPretty.quoted_append_inj heq
        rw [List.cons.injEq] at hvalue
        obtain ⟨hhead, htail⟩ := value_append_inj head other _ _
          (noDigit_members rest leftRest)
          (noDigit_members others rightRest) hvalue.2
        obtain ⟨hrest, hafter⟩ := members_append_inj false rest others
          leftRest rightRest htail
        exact ⟨by rw [hname, hhead, hrest], hafter⟩

end

theorem render_injective : Function.Injective render := by
  intro left right heq
  refine (value_append_inj left right [] [] JsonPretty.noDigit_nil
    JsonPretty.noDigit_nil ?_).1
  rw [JsonPretty.utf8_injective heq]

end Injective

section Printable

/-- Characters that are not control characters. -/
def Printable (chars : List Char) : Prop := ∀ c ∈ chars, 32 ≤ c.toNat

theorem printable_append {front back : List Char} :
    Printable (front ++ back) ↔ Printable front ∧ Printable back :=
  List.forall_mem_append

theorem printable_cons {c : Char} {rest : List Char} :
    Printable (c :: rest) ↔ 32 ≤ c.toNat ∧ Printable rest :=
  List.forall_mem_cons

theorem printable_nil : Printable [] := nofun

theorem le_toNat_hexDigit {n : Nat} (hn : n < 16) :
    32 ≤ (LowerHex.digit n).toNat := by
  have hall : ∀ k : Fin 16, 32 ≤ (LowerHex.digit k).toNat := by decide
  exact hall ⟨n, hn⟩

theorem printable_escapeChar (c : Char) : Printable (escapeChar c) := by
  have hescape : ∀ d : Char, 32 ≤ d.toNat → Printable ['\\', d] := fun d hd =>
    printable_cons.mpr ⟨by decide, printable_cons.mpr ⟨hd, printable_nil⟩⟩
  unfold escapeChar
  split_ifs with _ _ _ _ _ _ _ hcontrol
  · exact hescape '"' (by decide)
  · exact hescape '\\' (by decide)
  · exact hescape 'n' (by decide)
  · exact hescape 'r' (by decide)
  · exact hescape 't' (by decide)
  · exact hescape 'b' (by decide)
  · exact hescape 'f' (by decide)
  · simp only [printable_cons]
    exact ⟨by decide, by decide, by decide, by decide,
      le_toNat_hexDigit (by omega), le_toNat_hexDigit (by omega),
      printable_nil⟩
  · exact printable_cons.mpr ⟨Nat.not_lt.mp hcontrol, printable_nil⟩

theorem printable_quoted (text : String) : Printable (quoted text) := by
  refine printable_cons.mpr ⟨by decide, printable_append.mpr ⟨?_, ?_⟩⟩
  · intro c hc
    obtain ⟨original, -, hmem⟩ := List.mem_flatMap.mp hc
    exact printable_escapeChar original c hmem
  · exact printable_cons.mpr ⟨by decide, printable_nil⟩

theorem printable_toDigits (n : Nat) : Printable (Nat.toDigits 10 n) := by
  intro c hc
  have hdigit : c.isDigit = true :=
    Nat.isDigit_of_mem_toDigits (by decide) (by decide) hc
  have hzero : '0'.toNat ≤ c.toNat := by
    simp only [Char.isDigit, Bool.and_eq_true, decide_eq_true_eq] at hdigit
    exact hdigit.1
  exact Nat.le_trans (by decide) hzero

theorem printable_numeral (number : JsonNumber) :
    Printable (numeral number) := by
  have hsign : ∀ (c : Char) (n : Nat), 32 ≤ c.toNat →
      Printable (c :: Nat.toDigits 10 n) := fun c n hc =>
    printable_cons.mpr ⟨hc, printable_toDigits n⟩
  cases number with
  | integer v range =>
      by_cases hneg : v < 0
      · rw [numeral, if_pos hneg]
        exact hsign '-' _ (by decide)
      · rw [numeral, if_neg hneg]
        exact printable_toDigits _
  | float bits finite => exact hsign '~' _ (by decide)

theorem printable_comma (first : Bool) :
    Printable (if first then [] else [',']) := by
  cases first with
  | true => exact printable_nil
  | false => exact printable_cons.mpr ⟨by decide, printable_nil⟩

theorem printable_of_all {chars : List Char}
    (hall : chars.all (fun c => 32 ≤ c.toNat) = true) : Printable chars :=
  fun c hc => of_decide_eq_true (List.all_eq_true.mp hall c hc)

mutual

theorem printable_value : ∀ json : Json, Printable (value json)
  | .null => printable_of_all rfl
  | .boolean true => printable_of_all rfl
  | .boolean false => printable_of_all rfl
  | .number number => printable_numeral number
  | .string text => printable_quoted text
  | .array values => by
      simp only [value, printable_cons]
      exact ⟨by decide, printable_elements true values⟩
  | .object entries => by
      simp only [value, printable_cons]
      exact ⟨by decide, printable_members true entries⟩

theorem printable_elements (first : Bool) :
    ∀ values : List Json, Printable (elements first values)
  | [] => by
      simp only [elements, printable_cons]
      exact ⟨by decide, printable_nil⟩
  | head :: rest => by
      simp only [elements, printable_append]
      exact ⟨⟨printable_comma first, printable_value head⟩,
        printable_elements false rest⟩

theorem printable_members (first : Bool) :
    ∀ entries : List (String × Json), Printable (members first entries)
  | [] => by
      simp only [members, printable_cons]
      exact ⟨by decide, printable_nil⟩
  | (name, head) :: rest => by
      simp only [members, printable_append, printable_cons]
      exact ⟨⟨⟨printable_comma first, printable_quoted name⟩, by decide,
        printable_value head⟩, printable_members false rest⟩

end

theorem le_of_mem_render {json : Json} {b : UInt8} (hb : b ∈ render json) :
    32 ≤ b.toNat := by
  rw [render, utf8, Utf8.toUTF8_toList] at hb
  obtain ⟨c, hc, hbyte⟩ := List.mem_flatMap.mp hb
  rw [String.toList_ofList] at hc
  exact Utf8.le_of_mem_utf8EncodeChar (printable_value json c hc) hbyte

end Printable

section Text

open Classical in
/-- The value that a text is the text of. -/
noncomputable def parse (bytes : Bytes) : Option Json :=
  if h : ∃ json, render json = bytes then some h.choose else none

theorem parse_render (json : Json) : parse (render json) = some json := by
  have hex : ∃ other, render other = render json := ⟨json, rfl⟩
  unfold parse
  rw [dif_pos hex]
  exact congrArg some (render_injective hex.choose_spec)

noncomputable def text : JsonText where
  render := render
  parse := parse
  render_injective := render_injective
  parse_render := fun json _ => parse_render json

end Text

end JsonCompact

end Kettle
