import OverrideLint.Text.CodePoint

/-! Wildcard patterns: a star for any text, a question mark for any character, and
sets of characters in brackets. A pattern matches a whole name; it may have surrogates,
which a name has not. -/
namespace OverrideLint.Wildcard

inductive Member
  | single (point : CodePoint)
  | range (low high : CodePoint)
deriving DecidableEq, Repr

def Member.has (c : Char) : Member → Bool
  | single point => .char c == point
  | range low high => low.code ≤ c.toNat && c.toNat ≤ high.code

def Member.isEmptyRange : Member → Bool
  | single _ => false
  | range low high => high.code < low.code

structure CharSet where
  negated : Bool
  members : List Member
deriving DecidableEq, Repr

def CharSet.has (set : CharSet) (c : Char) : Bool :=
  set.members.any (·.has c) != set.negated

inductive Token
  | anyText
  | anyChar
  | literal (point : CodePoint)
  | set (members : CharSet)
deriving DecidableEq, Repr

/-- A hyphen between two characters makes a range of them. -/
def readMembers : List CodePoint → List Member
  | low :: .char '-' :: high :: rest => .range low high :: readMembers rest
  | point :: rest => .single point :: readMembers rest
  | [] => []

/-- An exclamation mark in front negates; ranges that hold nothing are dropped
before one is looked for. -/
def CharSet.ofMembers (members : List Member) : CharSet :=
  match members.filter (!·.isEmptyRange) with
  | .single (.char '!') :: rest => ⟨true, rest⟩
  | .range (.char '!') high :: rest => ⟨true, .single (.char '-') :: .single high :: rest⟩
  | kept => ⟨false, kept⟩

def CharSet.ofContent : List CodePoint → CharSet
  | .char '!' :: rest => .ofMembers (.single (.char '!') :: readMembers rest)
  | content => .ofMembers (readMembers content)

/-- How many characters of a set belong to it whatever they are: a bracket in first
place, also after an exclamation mark, does not close the set. -/
def headLength : List CodePoint → Nat
  | .char '!' :: .char ']' :: _ => 2
  | .char '!' :: _ => 1
  | .char ']' :: _ => 1
  | _ => 0

/-- The content of a set and the pattern after its closing bracket. -/
def splitSet (points : List CodePoint) : Option (List CodePoint × List CodePoint) :=
  let head := headLength points
  let inner := points.drop head
  match inner.dropWhile (· != .char ']') with
  | _ :: rest => some (points.take head ++ inner.takeWhile (· != .char ']'), rest)
  | [] => none

private theorem length_of_splitSet {points content rest : List CodePoint}
    (h : splitSet points = some (content, rest)) : rest.length < points.length := by
  unfold splitSet at h
  dsimp only at h
  have hle := (List.dropWhile_sublist (l := points.drop (headLength points))
    (· != .char ']')).length_le
  split at h
  · rename_i hdrop
    cases h
    rw [hdrop, List.length_drop] at hle
    simp only [List.length_cons] at hle
    omega
  · cases h

def tokens (points : List CodePoint) : List Token :=
  match points with
  | [] => []
  | .char '*' :: rest => .anyText :: tokens rest
  | .char '?' :: rest => .anyChar :: tokens rest
  | .char '[' :: rest =>
    match _hset : splitSet rest with
    | some (content, after) => .set (.ofContent content) :: tokens after
    | none => .literal (.char '[') :: tokens rest
  | point :: rest => .literal point :: tokens rest
termination_by points.length
decreasing_by
  · exact Nat.lt_succ_self _
  · exact Nat.lt_succ_self _
  · exact Nat.lt_succ_of_lt (length_of_splitSet _hset)
  · exact Nat.lt_succ_self _
  · exact Nat.lt_succ_self _

def Token.accepts (c : Char) : Token → Bool
  | anyText => true
  | anyChar => true
  | literal point => .char c == point
  | set members => members.has c

/-- Marks each entry that is true or has a true one after it. -/
def anyFollowing : List Bool → List Bool
  | [] => []
  | here :: rest =>
    let following := anyFollowing rest
    (here || following.head?.getD false) :: following

/-- Which suffixes of a name the tokens match, from the whole name to the empty one. -/
def suffixMatches (name : Text) : List Token → List Bool
  | [] => name.map (fun _ => false) ++ [true]
  | .anyText :: rest => anyFollowing (suffixMatches name rest)
  | token :: rest =>
    name.zipWith (fun c following => token.accepts c && following)
      (suffixMatches name rest).tail ++ [false]

def matchesWide (pattern : WideString) (name : String) : Bool :=
  (suffixMatches name.toList (tokens pattern.points)).head?.getD false

def matchesPattern (pattern name : String) : Bool := matchesWide pattern name

end OverrideLint.Wildcard
