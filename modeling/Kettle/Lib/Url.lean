/-
The parts of a URL that say which server is asked, as the generic syntax has
them: a scheme, two slashes, and an authority that ends at the path, the
query or the fragment.  A user may stand before the host and a port after it.
-/
import Kettle.Lib.Separated

namespace Url

/-- The characters that end an authority. -/
def endsAuthority (c : Char) : Bool :=
  c = '/' || c = '?' || c = '#'

/-- The scheme, and what follows the two slashes. -/
def splitScheme (url : List Char) : Option (List Char × List Char) :=
  match url.dropWhile (· ≠ ':') with
  | ':' :: '/' :: '/' :: rest => some (url.takeWhile (· ≠ ':'), rest)
  | _ => none

/-- The host of an authority, between the user and the port. -/
def authorityHost (authority : List Char) : List Char :=
  (authority.rtakeWhile (· ≠ '@')).takeWhile (· ≠ ':')

/-- Schemes and hosts are compared without regard to case. -/
def fold (text : List Char) : String :=
  String.ofList (text.map Char.toLower)

/-- Scheme and host of a URL that has an authority. -/
def schemeAndHost (url : String) : Option (String × String) :=
  (splitScheme url.toList).map fun parts =>
    (fold parts.1,
      fold (authorityHost (parts.2.takeWhile fun c => !endsAuthority c)))

section Plain

variable {scheme host : List Char}

theorem splitScheme_append (hscheme : ':' ∉ scheme) (rest : List Char) :
    splitScheme (scheme ++ ':' :: '/' :: '/' :: rest) =
      some (scheme, rest) := by
  rw [splitScheme, Separated.dropWhile_append_cons hscheme,
    Separated.takeWhile_append_cons hscheme]
  rfl

theorem authorityHost_plain (huser : '@' ∉ host) (hport : ':' ∉ host) :
    authorityHost host = host := by
  have hat : host.rtakeWhile (· ≠ '@') = host :=
    List.rtakeWhile_eq_self_iff.mpr fun c hc =>
      decide_eq_true (ne_of_mem_of_not_mem hc huser)
  have hcolon : host.takeWhile (· ≠ ':') = host :=
    List.takeWhile_eq_self_iff.mpr fun c hc =>
      decide_eq_true (ne_of_mem_of_not_mem hc hport)
  rw [authorityHost, hat, hcolon]

/-- A URL that begins with its scheme, its host and a slash. -/
theorem schemeAndHost_append (hscheme : ':' ∉ scheme) (huser : '@' ∉ host)
    (hport : ':' ∉ host) (hhost : ∀ c ∈ host, endsAuthority c = false)
    (path : List Char) :
    schemeAndHost (String.ofList
        (scheme ++ ':' :: '/' :: '/' :: (host ++ '/' :: path))) =
      some (fold scheme, fold host) := by
  have hall : ∀ c ∈ host, (!endsAuthority c) = true := fun c hc => by
    rw [hhost c hc, Bool.not_false]
  rw [schemeAndHost, String.toList_ofList, splitScheme_append hscheme,
    Option.map_some, List.takeWhile_append_of_pos hall,
    List.takeWhile_cons_of_neg (by simp [endsAuthority]), List.append_nil,
    authorityHost_plain huser hport]

end Plain

end Url
