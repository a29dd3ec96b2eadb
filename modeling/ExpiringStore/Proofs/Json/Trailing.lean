import ExpiringStore.Proofs.Json.Reader

/-!
# Nothing follows an object

A text is refused if anything but blanks stands behind an object. What the lexer has read stays
read, so a byte that is no blank comes to one more token at least, and the reader has no use for a
token behind the last brace.
-/
namespace ExpiringStore

namespace Scan

/-- A scan that has read `before`, and since then a token more or the start of one. -/
def Beyond (before : List Token) (s : Scan) : Prop :=
  ∃ more, s.tokens = more ++ before ∧ (more ≠ [] ∨ s.mode ≠ .between)

namespace Beyond

variable {before : List Token}

theorem of_mode {s : Scan} (tokens : s.tokens = before) (mode : s.mode ≠ .between) :
    Beyond before s :=
  ⟨[], tokens, .inr mode⟩

theorem of_token {s : Scan} {token : Token} (tokens : s.tokens = token :: before) :
    Beyond before s :=
  ⟨[token], tokens, .inl nofun⟩

/-- What is beyond some tokens is so whatever the lexer is in the middle of, if it
is beyond more tokens. -/
theorem mono {s : Scan} {more : List Token} (beyond : Beyond (more ++ before) s) :
    Beyond before s := by
  obtain ⟨later, tokens, further⟩ := beyond
  refine ⟨later ++ more, by rw [tokens, List.append_assoc], further.imp_left fun some none => ?_⟩
  exact some (List.append_eq_nil_iff.mp none).1

end Beyond

theorem begin_of_blank {tokens : List Token} {b : UInt8} (blank : isBlank b = true) :
    begin tokens b = some ⟨.between, tokens⟩ := if_pos blank

/-- A byte that is no blank begins a token, if it can stand there at all. -/
theorem beyond_of_begin {tokens : List Token} {b : UInt8} {s : Scan} (notBlank : isBlank b = false)
    (begun : begin tokens b = some s) : Beyond tokens s := by
  unfold begin at begun
  rw [notBlank, if_neg Bool.false_ne_true] at begun
  split at begun
  case h_11 =>
    obtain ⟨phase, -, rfl⟩ := Option.map_eq_some_iff.mp begun
    exact .of_mode rfl (by simp)
  all_goals
    obtain rfl := Option.some.inj begun
    first
    | exact .of_token rfl
    | exact .of_mode rfl (by simp)

/-- In the middle of a token one byte goes on with it, or ends it. -/
theorem beyond_of_step {s after : Scan} {b : UInt8} (inside : s.mode ≠ .between)
    (stepped : s.step b = some after) : Beyond s.tokens after := by
  obtain ⟨mode, tokens⟩ := s
  cases mode with
  | between => exact absurd rfl inside
  | word rest token =>
    simp only [step] at stepped
    split at stepped
    · cases stepped
    · split at stepped
      · obtain rfl := Option.some.inj stepped
        exact .of_token rfl
      · cases stepped
    · split at stepped
      · obtain rfl := Option.some.inj stepped
        exact .of_mode rfl (by simp)
      · cases stepped
  | number phase text =>
    simp only [step] at stepped
    split at stepped
    · obtain rfl := Option.some.inj stepped
      exact .of_mode rfl (by simp)
    · split at stepped
      · cases blank : isBlank b with
        | false => exact @Beyond.mono tokens after [_] (beyond_of_begin blank stepped)
        | true =>
          rw [begin_of_blank blank] at stepped
          obtain rfl := Option.some.inj stepped
          exact .of_token rfl
      · cases stepped
  | string pieces =>
    simp only [step] at stepped
    split at stepped
    · obtain rfl := Option.some.inj stepped
      exact .of_token rfl
    · split at stepped
      · obtain rfl := Option.some.inj stepped
        exact .of_mode rfl (by simp)
      · split at stepped
        · cases stepped
        · obtain rfl := Option.some.inj stepped
          exact .of_mode rfl (by simp)
  | escape pieces =>
    simp only [step] at stepped
    split at stepped
    · obtain rfl := Option.some.inj stepped
      exact .of_mode rfl (by simp)
    · obtain ⟨u, -, rfl⟩ := Option.map_eq_some_iff.mp stepped
      exact .of_mode rfl (by simp)
  | hex pieces missing value =>
    simp only [step] at stepped
    split at stepped
    · cases stepped
    · split at stepped <;>
      · obtain rfl := Option.some.inj stepped
        exact .of_mode rfl (by simp)

variable {before : List Token}

theorem Beyond.step {s after : Scan} (beyond : Beyond before s) {b : UInt8}
    (stepped : s.step b = some after) : Beyond before after := by
  obtain ⟨mode, tokens⟩ := s
  obtain ⟨more, rfl, further⟩ := beyond
  by_cases inside : mode = .between
  · subst inside
    cases blank : isBlank b with
    | false => exact (beyond_of_begin blank stepped).mono
    | true =>
      have same : begin (more ++ before) b = some after := stepped
      rw [begin_of_blank blank] at same
      obtain rfl := Option.some.inj same
      exact ⟨more, rfl, further⟩
  · exact (beyond_of_step inside stepped).mono

theorem Beyond.run {s after : Scan} (beyond : Beyond before s) {bytes : Bytes}
    (reads : bytes.foldlM Scan.step s = some after) : Beyond before after := by
  induction bytes generalizing s with
  | nil =>
    obtain rfl := Option.some.inj reads
    exact beyond
  | cons b rest ih =>
    rw [List.foldlM_cons] at reads
    obtain ⟨middle, stepped, reads⟩ := Option.bind_eq_some_iff.mp reads
    exact ih (beyond.step stepped) reads

/-- Bytes that are not all blank come to a token more, or to the start of one. -/
theorem beyond_of_run {bytes : Bytes} (notBlank : ∃ b ∈ bytes, isBlank b = false) {after : Scan}
    (reads : bytes.foldlM Scan.step ⟨.between, before⟩ = some after) : Beyond before after := by
  induction bytes with
  | nil =>
    obtain ⟨b, mem, -⟩ := notBlank
    cases mem
  | cons b rest ih =>
    rw [List.foldlM_cons] at reads
    obtain ⟨middle, stepped, reads⟩ := Option.bind_eq_some_iff.mp reads
    cases blank : isBlank b with
    | false => exact (beyond_of_begin blank stepped).run reads
    | true =>
      have same : begin before b = some middle := stepped
      rw [begin_of_blank blank] at same
      obtain rfl := Option.some.inj same
      refine ih ?_ reads
      obtain ⟨c, mem, other⟩ := notBlank
      rcases List.mem_cons.mp mem with rfl | later
      · rw [blank] at other
        cases other
      · exact ⟨c, later, other⟩

/-- A text that ends there has a token more than those before. -/
theorem Beyond.finish {s : Scan} (beyond : Beyond before s) {tokens : List Token}
    (ended : s.finish = some tokens) : ∃ token rest, tokens = before.reverse ++ token :: rest := by
  have split {more : List Token} (some : more ≠ []) :
      ∃ token rest, (more ++ before).reverse = before.reverse ++ token :: rest := by
    obtain ⟨token, rest, shape⟩ := List.exists_cons_of_ne_nil (List.reverse_ne_nil_iff.mpr some)
    exact ⟨token, rest, by rw [List.reverse_append, shape]⟩
  obtain ⟨mode, tokens⟩ := s
  obtain ⟨more, rfl, further⟩ := beyond
  cases mode with
  | between =>
    obtain rfl := Option.some.inj ended
    exact split (further.resolve_right (absurd rfl))
  | number phase text =>
    simp only [Scan.finish] at ended
    split at ended
    · obtain rfl := Option.some.inj ended
      exact @split (_ :: more) nofun
    · cases ended
  | _ => cases ended

end Scan

/-- Tokens behind a document are not read. -/
theorem Json.ofTokens?_append (document : Json) (token : Token) (rest : List Token) :
    ofTokens? (document.tokens ++ token :: rest) = none := by
  have read : document.tokens.foldlM Reading.step (.value []) = some (.done document) :=
    Reading.read_tokens document []
  have refused : (token :: rest).foldlM Reading.step (.done document) = none := by
    rw [List.foldlM_cons]
    cases token <;> rfl
  rw [ofTokens?, List.foldlM_append, read]
  exact congrArg (Option.bind · Reading.document?) refused

/-- A text of an object with anything but blanks behind it is refused. -/
theorem Json.parse?_append_of_object {members : List (Literal × Json)} {text rest : Bytes}
    (spelled : (Json.object members).Spelled text) (notBlank : ∃ b ∈ rest, Scan.isBlank b = false) :
    parse? (text ++ rest) = none := by
  have apart := @Token.apart_tokens (.object members) [] trivial
  rw [List.append_nil] at apart
  obtain ⟨middle, readsText, hasRead⟩ := Token.scan_row spelled (.between []) apart
  -- The last token is the closing brace, so nothing is open behind it.
  have between : middle = ⟨.between, (Json.object members).tokens.reverse⟩ := by
    rw [List.append_nil] at hasRead
    have last : (Json.object members).tokens.reverse =
        .closeBrace :: (.openBrace :: Token.separated (memberTokens members)).reverse := by
      rw [Json.tokens, ← List.cons_append, List.reverse_append]
      rfl
    rw [last] at hasRead ⊢
    cases hasRead
    rfl
  rw [Option.eq_none_iff_forall_ne_some]
  intro document parsed
  obtain ⟨tokens, scanned, taken⟩ := Option.bind_eq_some_iff.mp parsed
  obtain ⟨after, reads, ended⟩ := Option.bind_eq_some_iff.mp scanned
  rw [List.foldlM_append, readsText, between] at reads
  obtain ⟨token, more, rfl⟩ := (Scan.beyond_of_run notBlank reads).finish ended
  rw [List.reverse_reverse, ofTokens?_append] at taken
  cases taken

end ExpiringStore
