import Mathlib.Data.List.TakeWhile

/-! `getopt_long_only` of the GNU C library, for an option string that begins with `-`: every word
that is no option comes back with code 1, in its place. Optional arguments and `W;` are left out. -/
namespace Lib.Getopt

/-- An entry of the table of long options, with a null `flag`. -/
structure LongOption where
  name : List Char
  required : Bool
  val : Char
  deriving DecidableEq

/-- One return of the scanner, with `optarg`, which is empty where C has `NULL`. -/
structure Found where
  code : Char
  optarg : List Char
  deriving DecidableEq

def nonOption : Char := '\x01'

/-- Whether a short option takes an argument; `none` for a character that is no option. -/
def shortOption (optstring : List Char) (c : Char) : Option Bool :=
  if c = ':' ∨ c = ';' then none
  else match optstring.dropWhile (· ≠ c) with
    | [] => none
    | _ :: ':' :: _ => some true
    | _ => some false

/-- The short options of one word, and the last of them when the next word is its argument. -/
def shortOptions (optstring : List Char) : List Char → List Found × Option Char
  | [] => ([], none)
  | c :: rest =>
    match shortOption optstring c with
    | none => (⟨'?', []⟩ :: (shortOptions optstring rest).1, (shortOptions optstring rest).2)
    | some false => (⟨c, []⟩ :: (shortOptions optstring rest).1, (shortOptions optstring rest).2)
    | some true => if rest = [] then ([], some c) else ([⟨c, rest⟩], none)

inductive Match where
  | exact (o : LongOption)
  | ambiguous
  | missing

/-- The option of this name, or else the only one whose name begins so. -/
def findLong (longopts : List LongOption) (name : List Char) : Match :=
  match longopts.find? (·.name = name) with
  | some o => .exact o
  | none =>
    match longopts.filter (fun o => name.isPrefixOf o.name) with
    | [] => .missing
    | [o] => .exact o
    | _ => .ambiguous

/-- `process_long_option` on the text after the dashes; `none` when no name fits. -/
def processLongOption (longopts : List LongOption) (text : List Char) :
    Option (List Found × Option Char) :=
  match findLong longopts (text.takeWhile (· ≠ '=')), text.dropWhile (· ≠ '=') with
  | .missing, _ => none
  | .ambiguous, _ => some ([⟨'?', []⟩], none)
  | .exact o, _ :: value => some ([if o.required then ⟨o.val, value⟩ else ⟨'?', []⟩], none)
  | .exact o, [] => some (if o.required then ([], some o.val) else ([⟨o.val, []⟩], none))

/-- What one word of the command line gives, and the option that waits for the next word. -/
def word (optstring : List Char) (longopts : List LongOption) (arg : List Char) :
    List Found × Option Char :=
  match arg with
  | '-' :: '-' :: text => (processLongOption longopts text).getD ([⟨'?', []⟩], none)
  | '-' :: c :: rest =>
    -- "-f" alone is the short option f, even where a long name begins so
    if rest = [] ∧ c ∈ optstring then shortOptions optstring [c]
    else match processLongOption longopts (c :: rest) with
      | some found => found
      | none => if c ∈ optstring then shortOptions optstring (c :: rest) else ([⟨'?', []⟩], none)
  | _ => ([⟨nonOption, arg⟩], none)

/-- All returns of the scanner before -1; the state is the option that waits for its argument. -/
def scan (optstring : List Char) (longopts : List LongOption) :
    Option Char → List (List Char) → List Found
  | none, [] => []
  | some _, [] => [⟨'?', []⟩]
  | some c, arg :: args => ⟨c, arg⟩ :: scan optstring longopts none args
  | none, arg :: args =>
    if arg = ['-', '-'] then []
    else (word optstring longopts arg).1 ++
      scan optstring longopts (word optstring longopts arg).2 args

/-- `optstring` is the option string behind its `-`; `args` is `argv` behind the program's name. -/
def getoptLongOnly (optstring : List Char) (longopts : List LongOption)
    (args : List (List Char)) : List Found :=
  scan optstring longopts none args

variable {optstring name value : List Char} {longopts : List LongOption} {o : LongOption}
  {args : List (List Char)}

theorem processLongOption_exact (h : longopts.find? (·.name = name) = some o)
    (hname : '=' ∉ name) (hreq : o.required = true) :
    processLongOption longopts name = some ([], some o.val) := by
  have hall : ∀ c ∈ name, decide (c ≠ '=') = true := by
    intro c hc
    rw [decide_eq_true_eq]
    rintro rfl
    exact hname hc
  have htake : name.takeWhile (· ≠ '=') = name := List.takeWhile_eq_self_iff.mpr hall
  have hdrop : name.dropWhile (· ≠ '=') = [] := List.dropWhile_eq_nil_iff.mpr hall
  rw [processLongOption, htake, hdrop, findLong, h]
  simp [hreq]

/-- The full name of an option that requires an argument takes the next word, whatever it is. -/
theorem getoptLongOnly_exact (h : longopts.find? (·.name = name) = some o) (hname : '=' ∉ name)
    (hreq : o.required = true) (hdash : name.head? ≠ some '-') (hlen : 2 ≤ name.length) :
    getoptLongOnly optstring longopts (('-' :: name) :: value :: args) =
      ⟨o.val, value⟩ :: getoptLongOnly optstring longopts args := by
  have hlong := processLongOption_exact h hname hreq
  match name, hdash, hlen with
  | c :: d :: rest, hdash, _ =>
    have hc : c ≠ '-' := by simpa using hdash
    have hword : word optstring longopts ('-' :: c :: d :: rest) = ([], some o.val) := by
      simp [word, hlong]
    simp [getoptLongOnly, scan, hword]

end Lib.Getopt
