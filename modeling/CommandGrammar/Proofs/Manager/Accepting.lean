import CommandGrammar.Action
import CommandGrammar.Grammar.Build
import CommandGrammar.Manager
import CommandGrammar.Proofs.Token.Resumed
import Mathlib.Data.String.Basic

/-!
# Offers that are accepted

An offer takes the place of what was typed behind the last space. That is the word being typed
where the words of a line stand between spaces; a word that has a space in it, or that a tab, a line
feed or a quote sets apart from the one before, is not what is replaced.
-/

namespace CommandGrammar

open Tokenizer

/-! ## The last word of a text -/

/-- What stands behind the last space. -/
def lastWord (cs : List Char) : List Char :=
  (cs.reverse.takeWhile (· != ' ')).reverse

/-- What stands before that, the space with it. -/
def beforeLastWord (cs : List Char) : List Char :=
  (cs.reverse.dropWhile (· != ' ')).reverse

theorem beforeLastWord_append_lastWord (cs : List Char) :
    beforeLastWord cs ++ lastWord cs = cs := by
  rw [beforeLastWord, lastWord, ← List.reverse_append, List.takeWhile_append_dropWhile,
    List.reverse_reverse]

theorem spaced_beforeLastWord (cs : List Char) : Spaced (beforeLastWord cs) := by
  unfold beforeLastWord
  cases behind : cs.reverse.dropWhile (· != ' ') with
  | nil => exact .inl rfl
  | cons c front =>
      have more : cs.reverse.dropWhile (· != ' ') ≠ [] := by simp [behind]
      have stopped := List.head_dropWhile_not (· != ' ') more
      simp only [behind, List.head_cons, bne_eq_false_iff_eq] at stopped
      exact .inr ⟨front.reverse, by rw [stopped, List.reverse_cons]⟩

/-- In a line with a space, the last word is one of the text behind its first space. -/
theorem beforeLastWord_behind (first rest : List Char) :
    beforeLastWord (first ++ ' ' :: rest) = first ++ ' ' :: beforeLastWord rest := by
  have stop : (' ' :: first.reverse).dropWhile (· != ' ') = ' ' :: first.reverse :=
    List.dropWhile_cons_of_neg (by simp)
  unfold beforeLastWord
  rw [List.reverse_append, List.reverse_cons, List.append_assoc, List.singleton_append,
    List.dropWhile_append]
  split
  · rename_i none
    rw [stop, List.isEmpty_iff.mp none]
    simp
  · simp

namespace Manager

/-! ## Places in bytes -/

theorem go_append (front rest : List Char) :
    before.go (front ++ rest) (String.utf8Len front) = some front := by
  induction front with
  | nil => simp [before.go]
  | cons c front ih =>
      have size := c.utf8Size_pos
      obtain ⟨n, more⟩ : ∃ n, String.utf8Len (c :: front) = n + 1 :=
        ⟨String.utf8Len (c :: front) - 1, by rw [String.utf8Len_cons]; omega⟩
      rw [String.utf8Len_cons] at more
      have fits : c.utf8Size ≤ n + 1 := by omega
      have left : n + 1 - c.utf8Size = String.utf8Len front := by omega
      rw [String.utf8Len_cons, more, List.cons_append, before.go, if_pos fits, left, ih]
      rfl

theorem before_append (front rest : List Char) :
    before (front ++ rest) (String.utf8Len front) = front := by
  rw [before, go_append, Option.getD_some]

theorem foldl_utf8Size (cs : List Char) (n : Nat) :
    cs.foldl (fun n c => n + c.utf8Size) n = n + String.utf8Len cs := by
  induction cs generalizing n with
  | nil => rfl
  | cons c cs ih =>
      rw [List.foldl_cons, ih, String.utf8Len_cons]
      omega

theorem wordStart_eq (cs : List Char) : wordStart cs = String.utf8Len (beforeLastWord cs) := by
  have lengths := congrArg List.length (beforeLastWord_append_lastWord cs)
  rw [List.length_append] at lengths
  have behind :
      cs.length - (cs.reverse.takeWhile (· != ' ')).length = (beforeLastWord cs).length := by
    rw [← lengths, lastWord, List.length_reverse]
    omega
  have front : (beforeLastWord cs ++ lastWord cs).take (beforeLastWord cs).length =
      beforeLastWord cs := List.take_left
  rw [beforeLastWord_append_lastWord] at front
  unfold wordStart
  dsimp only
  rw [behind, front, foldl_utf8Size, Nat.zero_add]

/-! ## An offer in the place of the last word -/

/-- A line up to a place, and an offer behind it. -/
def accept (line : String) (start : Nat) (offer : String) : String :=
  String.ofList (before line.toList start) ++ offer

/-- An offer is accepted in the place of the last word. -/
theorem accept_completeLine (m : Manager) (env : Env) (line offer : String) :
    accept line (m.completeLine env line line.utf8ByteSize).1 offer =
      String.ofList (beforeLastWord line.toList) ++ offer := by
  have whole : before line.toList line.utf8ByteSize = line.toList := by
    have all := before_append line.toList []
    rw [List.append_nil, String.utf8Len_toList] at all
    exact all
  have kept := before_append (beforeLastWord line.toList) (lastWord line.toList)
  rw [beforeLastWord_append_lastWord] at kept
  unfold accept completeLine
  dsimp only
  rw [whole, wordStart_eq, kept]

/-- The offer that is accepted is the last token of the arguments, and those before it stay, exactly
if no quote is open before the last word, the space there is not escaped, and the last word is one
token at most. -/
theorem accepted_iff (m : Manager) (env : Env) {line offer : String} (spaced : ' ' ∈ line.toList)
    (plain : Plain offer) :
    let arguments := (Dispatcher.splitLine line).2.toList
    let accepted := accept line (m.completeLine env line line.utf8ByteSize).1 offer
    ∃ ts us vs, tokenize (.words {}) true (Dispatcher.splitLine line).2 = .ok ts ∧
      tokenize (.words {}) true (Dispatcher.splitLine accepted).2 = .ok us ∧
      tokenize (.words {}) true (String.ofList (lastWord arguments)) = .ok vs ∧
      (us.map (·.value) = (ts.map (·.value)).dropLast ++ [offer] ↔
        Fresh (beforeLastWord arguments) ∧ vs.length ≤ 1) := by
  intro arguments accepted
  cases split : Text.splitOnce ' ' line.toList with
  | none => exact absurd spaced (Text.splitOnce_eq_none_iff.mp split)
  | some parts =>
      obtain ⟨command, rest⟩ := parts
      obtain ⟨whole, free⟩ := Text.splitOnce_eq_some_iff.mp split
      have behind : arguments = rest := by simp [arguments, Dispatcher.splitLine, split]
      have placed : accepted.toList = command ++ ' ' :: (beforeLastWord rest ++ offer.toList) := by
        simp [accepted, accept_completeLine, whole, beforeLastWord_behind]
      have split' : Text.splitOnce ' ' accepted.toList =
          some (command, beforeLastWord rest ++ offer.toList) :=
        Text.splitOnce_eq_some_iff.mpr ⟨placed, free⟩
      have read := replaced_iff plain (spaced_beforeLastWord rest) (lastWord rest)
      rw [beforeLastWord_append_lastWord] at read
      simp only [Dispatcher.splitLine, split, split', behind]
      exact read

/-- A command that reads two names. -/
theorem accepted_of_second_word :
    let names : Element :=
      .sequence [.choices "a" [("red", .bool true)], .choices "b" [("blue", .bool true)]]
    let spec : Spec :=
      .mk (some names) (.action (Action.say "x" .empty)) none none none (.words {})
    let m : Manager := ⟨(Dispatcher.empty.register (.spec spec) ["cmd"]).2, []⟩
    let now : DateTime :=
      ⟨{ year := 2001, month := 2, day := 3 }, { hour := 4, minute := 5, second := 6, nano := 0 }⟩
    let env : Env := { source := { name := "ann" }, now }
    let line := "cmd red b"
    ' ' ∈ line.toList ∧ Plain "blue" ∧
      m.completeLine env line line.utf8ByteSize = (8, .ofList ["blue"]) ∧
      ∃ ts us, tokenize (.words {}) true (Dispatcher.splitLine line).2 = .ok ts ∧
        tokenize (.words {}) true (Dispatcher.splitLine (accept line 8 "blue")).2 = .ok us ∧
        us.map (·.value) = (ts.map (·.value)).dropLast ++ ["blue"] := by
  intro names spec m now env line
  have spaced : ' ' ∈ line.toList := by decide
  have plain : Plain "blue" := by decide
  have offered : m.completeLine env line line.utf8ByteSize = (8, .ofList ["blue"]) := by
    decide +kernel
  refine ⟨spaced, plain, offered, ?_⟩
  obtain ⟨ts, us, vs, old, new, last, same⟩ := accepted_iff m env spaced plain
  rw [offered] at new
  refine ⟨ts, us, old, new, same.mpr ⟨⟨?_, by decide⟩, ?_⟩⟩
  · intro opens
    have ended := (scan_ending true _).1.mpr opens
    revert ended
    decide
  · have one : tokenize (.words {}) true
        (String.ofList (lastWord (Dispatcher.splitLine line).2.toList)) = .ok [⟨"b", 0, 1⟩] := by decide
    cases one.symm.trans last
    exact Nat.le_refl 1

/-- Behind a tab, the offer takes the place of the word before as well. -/
theorem accepted_behind_tab :
    let names : Element :=
      .sequence [.choices "a" [("red", .bool true)], .choices "b" [("blue", .bool true)]]
    let spec : Spec :=
      .mk (some names) (.action (Action.say "x" .empty)) none none none (.words {})
    let m : Manager := ⟨(Dispatcher.empty.register (.spec spec) ["cmd"]).2, []⟩
    let now : DateTime :=
      ⟨{ year := 2001, month := 2, day := 3 }, { hour := 4, minute := 5, second := 6, nano := 0 }⟩
    let env : Env := { source := { name := "ann" }, now }
    let line := "cmd red\tb"
    m.completeLine env line line.utf8ByteSize = (4, .ofList ["blue"]) ∧ Plain "blue" ∧
      tokenize (.words {}) true (Dispatcher.splitLine line).2 = .ok [⟨"red", 0, 3⟩, ⟨"b", 4, 5⟩] ∧
      tokenize (.words {}) true (Dispatcher.splitLine (accept line 4 "blue")).2 =
        .ok [⟨"blue", 0, 4⟩] := by
  decide +kernel

end Manager

end CommandGrammar
