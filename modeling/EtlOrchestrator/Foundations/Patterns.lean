import Mathlib.Data.List.Basic

/-!
# Regular expressions with anchors

What a regular expression matches depends on what stands before and behind the match: `^`
matches nothing at the beginning of the text, and `$` nothing at its end, or just before a
newline that ends it.
-/

set_option autoImplicit false

/-- A regular expression without flags. -/
inductive Pattern where
  /-- `^` -/
  | beginning
  /-- `$` -/
  | ending
  /-- A class of characters -/
  | oneOf (accepts : Char → Bool)
  | followedBy (first second : Pattern)
  /-- `*` -/
  | many (body : Pattern)

namespace Pattern

/-- Any number of matches, one behind the other. -/
inductive Iterated (body : List Char → List Char → List Char → Prop) :
    List Char → List Char → List Char → Prop where
  | stop {before after : List Char} : Iterated body before [] after
  | again {before left right after : List Char} (once : body before left (right ++ after))
      (rest : Iterated body (before ++ left) right after) :
      Iterated body before (left ++ right) after

/-- A pattern matches a part of a text, between what stands before and what stands behind it. -/
def Matches : Pattern → List Char → List Char → List Char → Prop
  | beginning, before, matched, _ => before = [] ∧ matched = []
  | ending, _, matched, after => matched = [] ∧ (after = [] ∨ after = ['\n'])
  | oneOf accepts, _, matched, _ => ∃ char, matched = [char] ∧ accepts char = true
  | followedBy first second, before, matched, after => ∃ left right, matched = left ++ right ∧
      first.Matches before left (right ++ after) ∧ second.Matches (before ++ left) right after
  | many body, before, matched, after => Iterated body.Matches before matched after

/-- `re.match`: the pattern matches from the beginning of the text on. -/
def MatchesFromStart (pattern : Pattern) (text : List Char) : Prop :=
  ∃ matched after, text = matched ++ after ∧ pattern.Matches [] matched after

variable {before matched after : List Char}

@[simp] theorem matches_beginning_iff :
    beginning.Matches before matched after ↔ before = [] ∧ matched = [] := Iff.rfl

@[simp] theorem matches_ending_iff :
    ending.Matches before matched after ↔ matched = [] ∧ (after = [] ∨ after = ['\n']) := Iff.rfl

@[simp] theorem matches_oneOf_iff {accepts : Char → Bool} :
    (oneOf accepts).Matches before matched after ↔
      ∃ char, matched = [char] ∧ accepts char = true := Iff.rfl

@[simp] theorem matches_followedBy_iff {first second : Pattern} :
    (followedBy first second).Matches before matched after ↔
      ∃ left right, matched = left ++ right ∧ first.Matches before left (right ++ after) ∧
        second.Matches (before ++ left) right after := Iff.rfl

/-- **A repeated class matches the texts whose characters are all in the class.** -/
@[simp] theorem matches_many_oneOf_iff {accepts : Char → Bool} :
    (many (oneOf accepts)).Matches before matched after ↔
      ∀ char ∈ matched, accepts char = true := by
  constructor
  · intro iterated
    induction iterated with
    | stop => exact List.forall_mem_nil _
    | again once _ ih =>
        obtain ⟨char, rfl, accepted⟩ := once
        exact List.forall_mem_cons.mpr ⟨accepted, ih⟩
  · intro accepted
    induction matched generalizing before with
    | nil => exact .stop
    | cons char rest ih =>
        obtain ⟨first, others⟩ := List.forall_mem_cons.mp accepted
        exact Iterated.again ⟨char, rfl, first⟩ (ih others)

/-- A pattern between `^` and `$` matches the whole text, or all but a newline at its end. -/
theorem matchesFromStart_anchored_iff {body : Pattern} {text : List Char} :
    (followedBy beginning (followedBy body ending)).MatchesFromStart text ↔
      ∃ matched after, text = matched ++ after ∧ (after = [] ∨ after = ['\n']) ∧
        body.Matches [] matched after := by
  constructor
  · rintro ⟨_, after, rfl, _, _, rfl, ⟨_, rfl⟩, matched, _, rfl, bodyMatches, rfl, ends⟩
    rw [List.nil_append, List.append_nil]
    exact ⟨matched, after, rfl, ends, bodyMatches⟩
  · rintro ⟨matched, after, rfl, ends, bodyMatches⟩
    exact ⟨matched, after, rfl, [], matched, rfl, ⟨rfl, rfl⟩, matched, [],
      (List.append_nil _).symm, bodyMatches, rfl, ends⟩

end Pattern
