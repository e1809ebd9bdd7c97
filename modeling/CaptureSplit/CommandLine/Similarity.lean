/-
CaptureSplit.CommandLine.Similarity — which known word a word resembles.

The measure is the Jaro similarity: characters of two words match if they
are equal and not farther apart than half the longer word, each with one
partner at most, taken from the left; a similarity is the mean of the
shares of matched characters in the two words and of the matches that
stand in the same order. It is computed in binary fractions, in the order
in which the shares are named here: their rounding decides between words
that are equally similar otherwise, and puts a mean of seven tenths above
the threshold of that value.
-/

namespace CaptureSplit.CommandLine.Similarity

/-! ## Matching -/

/-- Takes the first free partner of `c` among positions `low` to `high`,
`position` being that of the first of the flagged characters. -/
def takePartner (c : Char) (low high position : Nat) :
    List (Char × Bool) → Option (List (Char × Bool))
  | [] => none
  | (d, taken) :: rest =>
    if low ≤ position && position < high && c == d && !taken then some ((d, true) :: rest)
    else (takePartner c low high (position + 1) rest).map ((d, taken) :: ·)

/-- The matched characters of the first word, in order, and the flags of
the second. -/
def matchAll (range position : Nat) (second : List (Char × Bool)) :
    List Char → List Char × List (Char × Bool)
  | [] => ([], second)
  | c :: rest =>
    match takePartner c (position - range) (position + range + 1) 0 second with
    | some flagged =>
      let (found, flags) := matchAll range (position + 1) flagged rest
      (c :: found, flags)
    | none => matchAll range (position + 1) second rest

/-- How far apart two matching characters may stand. -/
def searchRange (a b : List Char) : Nat := Nat.max a.length b.length / 2 - 1

/-! ## The measure -/

/-- The share that `part` is of `whole`, as a binary fraction. -/
def share (part whole : Nat) : Float := Float.ofNat part / Float.ofNat whole

/-- The similarity of two words. -/
def jaro (a b : List Char) : Float :=
  if a.isEmpty && b.isEmpty then 1
  else
    let (found, flags) := matchAll (searchRange a b) 0 (b.map (·, false)) a
    let partners := (flags.filter (·.2)).map (·.1)
    let m := found.length
    let t := (List.zip found partners).countP (fun p => p.1 != p.2) / 2
    if m = 0 then 0
    else (share m a.length + share m b.length + share (m - t) m) / 3

/-! ## Suggestions -/

/-- What the similarity of a suggestion is above. -/
def threshold : Float := 0.7

/-- The most similar of the known words, the later one of two that are
equally similar, if any is similar enough. -/
def suggestion? (word : String) (known : List String) : Option String :=
  let score (k : String) := jaro word.toList k.toList
  let close := known.filter fun k => threshold < score k
  close.foldl (fun best k =>
    match best with
    | none => some k
    | some b => if score b ≤ score k then some k else some b) none

end CaptureSplit.CommandLine.Similarity
