import ShellExpr.Proofs.Line.Tokens
import ShellExpr.Proofs.Text.Spaced

/-!
# Tokens and the blanks around them

Where a token ends does not depend on what stands behind the next blank, unless it is a comment,
and a comment is always the last token of its line.  So the texts of tokens fall into the same
tokens again, each by itself and all of them with any blanks between them.
-/

namespace ShellExpr

namespace Line

/-! ### Tokens in front of a blank -/

theorem EndsWord.before_blank {behind : List Char} (ends : EndsWord behind) {c : Char}
    (blank : Text.isBlank c = true) (more : List Char) : EndsWord (behind ++ c :: more) := by
  intro next rest whole
  cases behind with
  | nil =>
    cases whole
    exact .inl blank
  | cons other others =>
    cases whole
    exact ends next others rfl

/-- A token that is no comment ends where it ends, whatever follows behind the next blank. -/
theorem IsToken.before_blank {first : Char} {text behind : List Char}
    (token : IsToken (first :: text) behind) (no_comment : kindOf first ≠ .comment) {c : Char}
    (blank : Text.isBlank c = true) (more : List Char) :
    IsToken (first :: text) (behind ++ c :: more) := by
  cases token with
  | span span behind => exact .span span (behind ++ c :: more)
  | comment => exact absurd rfl no_comment
  | word filled word ends => exact .word filled word (ends.before_blank blank more)

theorem Falls.behind_blanks {gap cs : List Char} {tokens : List Token}
    (blank : ∀ c ∈ gap, Text.isBlank c = true) (falls : Falls cs tokens) :
    Falls (gap ++ cs) tokens := by
  cases falls with
  | blanks more => exact .blanks (List.forall_mem_append.2 ⟨blank, more⟩)
  | token more token later =>
    rw [← List.append_assoc, ← List.append_assoc]
    exact .token (List.forall_mem_append.2 ⟨blank, more⟩) token later

/-! ### Tokens by themselves -/

theorem IsToken.alone {text behind : List Char} (token : IsToken text behind) :
    IsToken text [] := by
  cases token with
  | span span behind => exact .span span []
  | comment text => exact .comment text
  | word filled word ends => exact .word filled word endsWord_nil

/-- The text of a token falls into that token. -/
theorem IsToken.falls {first : Char} {rest behind : List Char}
    (token : IsToken (first :: rest) behind) :
    Falls (first :: rest) [⟨kindOf first, String.ofList (first :: rest)⟩] := by
  have nothing : ∀ c ∈ ([] : List Char), Text.isBlank c = true := List.forall_mem_nil _
  have single := Falls.token nothing token.alone (.blanks nothing)
  rwa [List.nil_append, List.append_nil] at single

theorem Falls.each {cs : List Char} {tokens : List Token} (falls : Falls cs tokens) :
    ∀ token ∈ tokens, Falls token.text.toList [token] := by
  induction falls with
  | blanks => exact List.forall_mem_nil _
  | token _ token _ ih =>
    refine List.forall_mem_cons.2 ⟨?_, ih⟩
    rw [String.toList_ofList]
    exact token.falls

theorem kindOf_eq_comment {first : Char} (h : kindOf first = .comment) : first = '#' := by
  by_contra other
  unfold kindOf at h
  rw [if_neg other] at h
  split_ifs at h

/-- Nothing stands behind a comment. -/
theorem no_comment_before {first : Char} {rest behind : List Char} {tokens : List Token}
    (token : IsToken (first :: rest) behind) (later : Falls behind tokens)
    (some_token : tokens ≠ []) : kindOf first ≠ .comment := by
  intro comment
  have sign := kindOf_eq_comment comment
  cases token with
  | span span =>
    obtain ⟨c, close, inner, same, opens, _⟩ := closes_of_span span
    cases same
    rw [sign] at opens
    contradiction
  | comment => exact some_token (later.eq_nil (List.forall_mem_nil _))
  | word _ word _ => exact (wordText_cons word).2.1 sign

/-! ### Tokens with other blanks between them -/

/-- A line falls into the same tokens with other blanks between them. -/
theorem Falls.respaced {cs : List Char} {tokens : List Token} (falls : Falls cs tokens)
    {other : List Char}
    (spaced : Text.Spaced Text.isBlank (tokens.map fun token => token.text.toList) other) :
    Falls other tokens := by
  induction falls generalizing other with
  | blanks =>
    cases spaced
    exact .blanks (List.forall_mem_nil _)
  | @token gap rest behind first tokens _ token later ih =>
    rw [List.map_cons, String.toList_ofList] at spaced
    cases tokens with
    | nil =>
      rw [spaced.eq_of_single]
      exact token.falls
    | cons second others =>
      cases spaced with
      | @before _ c gap blank blanks _ _ after later_spaced =>
        have ends := token.alone.before_blank
          (no_comment_before token later (List.cons_ne_nil second others)) blank (gap ++ after)
        have following : Falls (c :: gap ++ after) (second :: others) :=
          (ih later_spaced).behind_blanks (List.forall_mem_cons.2 ⟨blank, blanks⟩)
        rw [List.append_assoc]
        exact .token (List.forall_mem_nil _) ends following

theorem tokenize_of_falls {line : String} {token : Token} {tokens : List Token}
    (falls : Falls line.toList (token :: tokens)) : tokenize line = .ok (token :: tokens) :=
  tokenize_of_hasTokens (.inr ⟨List.cons_ne_nil token tokens, falls⟩)

end Line

open Line

/-- The text of each token of a line is a line of that token alone, and all texts together, with any
blanks between them, are a line of the same tokens. -/
theorem tokenize_respaced {line : String} {tokens : List Token} (h : tokenize line = .ok tokens) :
    (∀ token ∈ tokens, tokenize token.text = .ok [token]) ∧
      ∀ other : String,
        Text.Spaced Text.isBlank (tokens.map fun token => token.text.toList) other.toList →
          tokenize other = .ok tokens := by
  rcases hasTokens_of_tokenize h with ⟨_, rfl⟩ | ⟨some_token, falls⟩
  · refine ⟨List.forall_mem_singleton.2 h, ?_⟩
    intro other spaced
    rw [String.toList_injective spaced.eq_of_single]
    exact h
  · refine ⟨fun token member => tokenize_of_falls (falls.each token member), ?_⟩
    intro other spaced
    obtain ⟨token, others, rfl⟩ := List.exists_cons_of_ne_nil some_token
    exact tokenize_of_falls (falls.respaced spaced)

/-- A word that ends in an escaped space, a quoted text right behind it and a comment. -/
theorem tokenize_respaced_touching :
    tokenize "a\\ \"b c\"# d " =
        .ok [⟨.name, "a\\ "⟩, ⟨.string, "\"b c\""⟩, ⟨.comment, "# d "⟩] ∧
      tokenize "a\\ " = .ok [⟨.name, "a\\ "⟩] ∧
      tokenize "a\\ \t\"b c\" \u3000# d " =
        .ok [⟨.name, "a\\ "⟩, ⟨.string, "\"b c\""⟩, ⟨.comment, "# d "⟩] := by
  have read : tokenize "a\\ \"b c\"# d " =
      .ok [⟨.name, "a\\ "⟩, ⟨.string, "\"b c\""⟩, ⟨.comment, "# d "⟩] := by
    have word : Cursor.token? (.start "a\\ \"b c\"# d ") =
        .ok (some (⟨.name, "a\\ "⟩, ⟨4, "\"b c\"# d ".toList⟩)) := rfl
    have quoted : Cursor.token? ⟨4, "\"b c\"# d ".toList⟩ =
        .ok (some (⟨.string, "\"b c\""⟩, ⟨9, "# d ".toList⟩)) := rfl
    have comment : Cursor.token? ⟨9, "# d ".toList⟩ =
        .ok (some (⟨.comment, "# d "⟩, ⟨13, []⟩)) := rfl
    rw [tokenize, if_neg (by decide)]
    exact tokensFrom_token word (tokensFrom_token quoted (tokensFrom_token comment
      (tokensFrom_blanks rfl)))
  have apart : Text.Spaced Text.isBlank ["a\\ ".toList, "\"b c\"".toList, "# d ".toList]
      "a\\ \t\"b c\" \u3000# d ".toList := by
    have last : Text.Spaced Text.isBlank ["# d ".toList] "# d ".toList := .single _
    have middle := last.behind "\"b c\"".toList [' ', '\u3000'] (by decide)
    exact middle.behind "a\\ ".toList ['\t'] (by decide)
  have respaced := tokenize_respaced read
  exact ⟨read, respaced.1 _ List.mem_cons_self, respaced.2 _ apart⟩

end ShellExpr
