import Mathlib.Data.List.Forall2
import OverrideLint.Text.Wildcard

/-! What a pattern matches, token by token. The matcher goes through the tokens from the last one
and keeps which suffixes of the name are matched so far. -/
namespace OverrideLint.Wildcard

inductive Matches : List Token → Text → Prop
  | nil : Matches [] []
  | anyText {rest : List Token} {following : Text} (skipped : Text) (h : Matches rest following) :
    Matches (.anyText :: rest) (skipped ++ following)
  | char {token : Token} {rest : List Token} {c : Char} {following : Text}
      (htoken : token ≠ .anyText) (haccepts : token.accepts c = true) (h : Matches rest following) :
    Matches (token :: rest) (c :: following)

private theorem matches_nil_iff {text : Text} : Matches [] text ↔ text = [] := by
  constructor
  · rintro ⟨⟩
    rfl
  · rintro rfl
    exact .nil

private theorem matches_anyText_iff {rest : List Token} {text : Text} :
    Matches (.anyText :: rest) text ↔ ∃ following, following <:+ text ∧ Matches rest following := by
  constructor
  · intro h
    cases h with
    | anyText skipped h => exact ⟨_, List.suffix_append skipped _, h⟩
    | char htoken => exact absurd rfl htoken
  · rintro ⟨following, ⟨skipped, rfl⟩, h⟩
    exact .anyText skipped h

private theorem matches_char_iff {token : Token} (htoken : token ≠ .anyText) {rest : List Token}
    {text : Text} :
    Matches (token :: rest) text ↔
      ∃ c following, text = c :: following ∧ token.accepts c = true ∧ Matches rest following := by
  constructor
  · intro h
    cases h with
    | anyText => exact absurd rfl htoken
    | char _ haccepts h => exact ⟨_, _, rfl, haccepts, h⟩
  · rintro ⟨c, following, rfl, haccepts, h⟩
    exact .char htoken haccepts h

/-- One flag for each suffix of a text, the whole text first: whether it has a property. -/
def Marks (p : Text → Prop) (flags : List Bool) (text : Text) : Prop :=
  List.Forall₂ (fun flag suffix => flag = true ↔ p suffix) flags text.tails

section Marks

variable {p q : Text → Prop} {flags : List Bool} {text : Text}

theorem Marks.head (h : Marks p flags text) : flags.head?.getD false = true ↔ p text := by
  cases text <;> cases h <;> assumption

private theorem marks_nil {flag : Bool} (h : flag = true ↔ p []) : Marks p [flag] [] :=
  .cons h .nil

theorem Marks.cons {flag : Bool} {c : Char} (hflag : flag = true ↔ p (c :: text))
    (h : Marks p flags text) : Marks p (flag :: flags) (c :: text) :=
  List.Forall₂.cons hflag h

theorem Marks.exists_cons {c : Char} (h : Marks p flags (c :: text)) :
    ∃ flag rest, flags = flag :: rest ∧ (flag = true ↔ p (c :: text)) ∧ Marks p rest text := by
  obtain _ | ⟨hflag, hrest⟩ := h
  exact ⟨_, _, rfl, hflag, hrest⟩

theorem Marks.congr (h : Marks p flags text) (hpq : ∀ suffix, p suffix ↔ q suffix) :
    Marks q flags text :=
  h.imp fun _ suffix hflag => hflag.trans (hpq suffix)

private theorem marks_isEmpty (text : Text) :
    Marks (· = []) (text.map (fun _ => false) ++ [true]) text := by
  induction text with
  | nil => exact marks_nil (by simp)
  | cons c rest ih => exact ih.cons (by simp)

theorem Marks.anyFollowing (h : Marks p flags text) :
    Marks (fun suffix => ∃ following, following <:+ suffix ∧ p following) (anyFollowing flags)
      text := by
  induction text generalizing flags with
  | nil =>
    obtain _ | ⟨hflag, ⟨⟩⟩ := h
    apply marks_nil
    simp [Wildcard.anyFollowing, hflag]
  | cons c rest ih =>
    obtain ⟨flag, flags, rfl, hflag, hrest⟩ := h.exists_cons
    have hfollowing := ih hrest
    refine hfollowing.cons ?_
    rw [Bool.or_eq_true, hfollowing.head, hflag]
    simp only [List.suffix_cons_iff, or_and_right, exists_or, exists_eq_left]

theorem Marks.step (accepts : Char → Bool) (h : Marks p flags text) :
    Marks (fun suffix => ∃ c following, suffix = c :: following ∧ accepts c = true ∧ p following)
      (text.zipWith (fun c following => accepts c && following) flags.tail ++ [false]) text := by
  induction text generalizing flags with
  | nil => exact marks_nil (by simp)
  | cons c rest ih =>
    obtain ⟨_, flags, rfl, -, hrest⟩ := h.exists_cons
    have hhead := hrest.head
    have hsteps := ih hrest
    cases flags with
    | nil => cases rest <;> cases hrest
    | cons flag flags =>
      refine hsteps.cons ?_
      rw [Bool.and_eq_true]
      simp only [List.head?_cons, Option.getD_some] at hhead
      simp [hhead]

end Marks

private theorem marks_suffixMatches (text : Text) (tokens : List Token) :
    Marks (Matches tokens) (suffixMatches text tokens) text := by
  induction tokens with
  | nil => exact (marks_isEmpty text).congr fun _ => matches_nil_iff.symm
  | cons token rest ih =>
    by_cases htoken : token = .anyText
    · subst htoken
      exact ih.anyFollowing.congr fun _ => matches_anyText_iff.symm
    · have hstep : suffixMatches text (token :: rest) =
          text.zipWith (fun c following => token.accepts c && following)
            (suffixMatches text rest).tail ++ [false] := by
        cases token with
        | anyText => exact absurd rfl htoken
        | _ => rfl
      rw [hstep]
      exact (ih.step token.accepts).congr fun _ => (matches_char_iff htoken).symm

theorem matchesWide_iff {pattern : WideString} {name : String} :
    matchesWide pattern name = true ↔ Matches (tokens pattern.points) name.toList :=
  (marks_suffixMatches name.toList (tokens pattern.points)).head

end OverrideLint.Wildcard
