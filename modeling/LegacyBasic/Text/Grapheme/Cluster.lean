import LegacyBasic.Text.Grapheme.Part

/-!
Clusters: how far the characters of a text belong together.
-/

namespace LegacyBasic.Grapheme

/-- What a cluster ends with so far, as far as the next character depends on it. -/
inductive Context where
  | start
  | afterReturn
  | afterControl
  | afterLeading
  | afterVowel
  | afterTrailing
  | afterPreface
  | afterPictograph
  | afterPictographJoiner
  /-- After the first letter of a flag. -/
  | afterRegional
  /-- After both letters of a flag. -/
  | afterFlag
deriving DecidableEq, Repr

namespace Context

/-- Whether a character of this part belongs to the cluster. -/
def joins : Context → Part → Bool
  | afterReturn, part => part = .lineFeed
  | afterControl, _ => false
  | _, .carriageReturn | _, .lineFeed | _, .control => false
  | _, .extension | _, .joiner | _, .spacingMark => true
  | afterPreface, _ => true
  | afterLeading, .leading | afterLeading, .vowel => true
  | afterLeading, .openSyllable | afterLeading, .closedSyllable => true
  | afterVowel, .vowel | afterVowel, .trailing => true
  | afterTrailing, .trailing => true
  | afterPictographJoiner, .pictograph => true
  | afterRegional, .regional => true
  | _, _ => false

def next : Context → Part → Context
  | _, .carriageReturn => afterReturn
  | _, .lineFeed | _, .control => afterControl
  | _, .preface => afterPreface
  | _, .leading => afterLeading
  | _, .vowel | _, .openSyllable => afterVowel
  | _, .trailing | _, .closedSyllable => afterTrailing
  | _, .pictograph => afterPictograph
  | afterRegional, .regional => afterFlag
  | _, .regional => afterRegional
  | afterPictograph, .extension => afterPictograph
  | afterPictograph, .joiner => afterPictographJoiner
  | _, _ => start

/-- Splits off the characters that still belong to the cluster. -/
def extent (context : Context) : List Char → List Char × List Char
  | [] => ([], [])
  | c :: rest =>
    if context.joins (Part.ofChar c) then
      let (cluster, others) := extent (context.next (Part.ofChar c)) rest
      (c :: cluster, others)
    else ([], c :: rest)

/-- Splitting loses nothing. -/
theorem extent_append (context : Context) (text : List Char) :
    (context.extent text).1 ++ (context.extent text).2 = text := by
  induction text generalizing context with
  | nil => rfl
  | cons c rest ih =>
    simp only [extent]
    split
    · simp [ih]
    · rfl

theorem length_extent_snd_le (context : Context) (text : List Char) :
    (context.extent text).2.length ≤ text.length := by
  have h := congrArg List.length (extent_append context text)
  rw [List.length_append] at h
  omega

end Context

/-- Splits the characters after `first` into those of its cluster and the others. -/
def afterFirst (first : Char) (rest : List Char) : List Char × List Char :=
  (Context.start.next (Part.ofChar first)).extent rest

end LegacyBasic.Grapheme
