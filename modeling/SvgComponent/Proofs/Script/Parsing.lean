import SvgComponent.Proofs.Script.Tokens
import SvgComponent.Script.Grammar.Basic

/-!
# Parsers at a token

`Parses` says that a parser at a text gives a result and goes on at another text, whether or not
a line break stands in front. Parsers in sequence are put together by `Parses.andThen`; a test that
does not hold is passed by (`Parses.otherwise`).

Most tests ask for words and marks that are not there. `Token.Only` bounds what a token can be,
so that all of them are answered at once (`Parses.atAny_of_only`).
-/

namespace SvgComponent.Script

open Json Text Script.Parser

/-! ## What a token can be -/

/-- A token that is no word and no mark but one of some. -/
def Token.Only (texts : List String) (token : Token) : Prop :=
  ∀ text, token.is text = true → text ∈ texts

theorem Token.Only.is_eq_false {texts : List String} {token : Token} (h : token.Only texts)
    {text : String} (ht : text ∉ texts) : token.is text = false := by
  cases hi : token.is text with
  | false => rfl
  | true => exact absurd (h text hi) ht

/-- A token that can only be one of some texts is none of others. -/
theorem Token.Only.any_is_eq_false {texts others : List String} {token : Token}
    (h : token.Only texts) (ho : ∀ text ∈ others, text ∉ texts) : others.any token.is = false := by
  rw [List.any_eq_false]
  intro text ht
  rw [h.is_eq_false (ho text ht)]
  exact Bool.false_ne_true

theorem only_mark (mark : String) : (Token.mark mark).Only [mark] := by
  intro text h
  rw [Token.is, decide_eq_true_eq] at h
  exact List.mem_singleton.2 h.symm

theorem only_word (word : String) : (Token.word word).Only [word] := by
  intro text h
  rw [Token.is, decide_eq_true_eq] at h
  exact List.mem_singleton.2 h.symm

theorem only_string (value : Option String) : (Token.string value).Only [] :=
  fun _ h => absurd h Bool.false_ne_true

theorem Token.Only.mono {texts others : List String} {token : Token} (h : token.Only texts)
    (hs : texts ⊆ others) : token.Only others :=
  fun text ht => hs (h text ht)

/-! ## What a parser makes of a text -/

/-- What a parser makes of a text : a result, and the text that it goes on at. -/
def Parses {α : Type} (limit : Nat) (p : Parser α) (cs : List Char) (a : α) (rest : List Char) :
    Prop :=
  ∀ newline, ∃ newline',
    p (Cursor.ofText limit cs newline) = .ok a (Cursor.ofText limit rest newline')

namespace Parses

variable {α β σ : Type} {limit : Nat} {cs rest : List Char}

theorem pure (a : α) (cs : List Char) : Parses limit (Pure.pure a) cs a cs :=
  fun newline => ⟨newline, rfl⟩

/-- Parsers that make something of a text one after the other make it in sequence. -/
theorem andThen {p : Parser α} {next : α → Parser β} {a : α} {b : β} {between : List Char}
    (hp : Parses limit p cs a between) (hn : Parses limit (next a) between b rest) :
    Parses limit (p >>= next) cs b rest := by
  intro newline
  obtain ⟨newline', h⟩ := hp newline
  obtain ⟨newline'', h'⟩ := hn newline'
  refine ⟨newline'', ?_⟩
  show EStateM.bind p next _ = _
  rw [EStateM.bind, h]
  exact h'

/-- Behind a test that does not hold the other way is taken. -/
theorem otherwise {test : Parser Bool} {yes no : Parser α} {a : α}
    (ht : Parses limit test cs false cs) (hn : Parses limit no cs a rest) :
    Parses limit (do if ← test then yes else no) cs a rest :=
  ht.andThen hn

theorem recover {p handler : Parser α} {a : α} (hp : Parses limit p cs a rest) :
    Parses limit (Parser.recover p handler) cs a rest := by
  intro newline
  obtain ⟨newline', h⟩ := hp newline
  exact ⟨newline', by rw [Parser.recover, h]⟩

/-! ## Tests -/

theorem token (cs : List Char) : Parses limit Parser.token cs (Token.scan cs).1 cs :=
  fun newline => ⟨newline, rfl⟩

theorem at? (text : String) (cs : List Char) :
    Parses limit (Parser.at? text) cs ((Token.scan cs).1.is text) cs :=
  fun newline => ⟨newline, rfl⟩

theorem atAny (texts : List String) (cs : List Char) :
    Parses limit (Parser.atAny texts) cs (texts.any (Token.scan cs).1.is) cs :=
  fun newline => ⟨newline, rfl⟩

section only

variable {texts : List String} (h : (Token.scan cs).1.Only texts)

include h

theorem at?_of_only {text : String} (ht : text ∉ texts) :
    Parses limit (Parser.at? text) cs false cs := by
  have hat : Parses limit (Parser.at? text) cs ((Token.scan cs).1.is text) cs := at? text cs
  rwa [h.is_eq_false ht] at hat

theorem eat_of_only {text : String} (ht : text ∉ texts) :
    Parses limit (Parser.eat text) cs false cs :=
  otherwise (at?_of_only h ht) (.pure false cs)

theorem atAny_of_only {others : List String} (ho : ∀ text ∈ others, text ∉ texts) :
    Parses limit (Parser.atAny others) cs false cs := by
  have hat : Parses limit (Parser.atAny others) cs (others.any (Token.scan cs).1.is) cs :=
    atAny others cs
  rwa [h.any_is_eq_false ho] at hat

end only

/-! ## Steps -/

section steps

variable {token : Token} {gap : List Char} (hs : Token.scan cs = (token, gap ++ rest))
  (hg : IsGap gap) (hr : AtToken rest)

include hs hg hr

/-- The next token is passed over with the gap behind it. -/
theorem bump : Parses limit Parser.bump cs () rest := by
  intro newline
  obtain ⟨newline', h⟩ := exists_skipGap hg hr false
  refine ⟨newline', ?_⟩
  show EStateM.Result.ok () (Cursor.ofText limit cs newline).next = _
  have hbehind : (Cursor.ofText limit cs newline).behind = gap ++ rest := congrArg Prod.snd hs
  rw [Cursor.next, hbehind, Cursor.moved, h]
  rfl

theorem eat {text : String} (ht : token.is text = true) :
    Parses limit (Parser.eat text) cs true rest := by
  have hat : Parses limit (Parser.at? text) cs ((Token.scan cs).1.is text) cs := at? text cs
  rw [hs, ht] at hat
  exact hat.andThen ((bump hs hg hr).andThen (.pure true rest))

theorem expect {text : String} (ht : token.is text = true) :
    Parses limit (Parser.expect text) cs () rest :=
  (eat hs hg hr ht).andThen (.pure () rest)

end steps

theorem eat_mark {text : String} {gap : List Char} (hs : Token.scan cs = (.mark text, gap ++ rest))
    (hg : IsGap gap) (hr : AtToken rest) : Parses limit (Parser.eat text) cs true rest :=
  eat hs hg hr (decide_eq_true rfl)

theorem expect_mark {text : String} {gap : List Char}
    (hs : Token.scan cs = (.mark text, gap ++ rest)) (hg : IsGap gap) (hr : AtToken rest) :
    Parses limit (Parser.expect text) cs () rest :=
  expect hs hg hr (decide_eq_true rfl)

/-! ## Repeating -/

theorem whileHolds_of_not {test : Parser Bool} {step : σ → Parser σ} (s : σ)
    (ht : Parses limit test cs false cs) : Parses limit (whileHolds test step s) cs s cs := by
  intro newline
  exact (otherwise ht (.pure s cs) : Parses limit (whileIn test step (limit + 1) s) cs s cs) newline

/-- A loop goes on at most once for every character. -/
theorem whileHolds {test : Parser Bool} {step : σ → Parser σ} {s s' : σ}
    (h : Parses limit (whileIn test step (limit + 1) s) cs s' rest) :
    Parses limit (Parser.whileHolds test step s) cs s' rest :=
  fun newline => h newline

end Parses

end SvgComponent.Script
