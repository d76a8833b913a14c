import Preview.Json.Printer
import Preview.Json.Raw
import Preview.Proofs.Digits

/-
  Reading back the compact text of a JSON value.

  The text of a value is scanned into the tokens of the
  value, and those tokens are put together to the tree of the
  value.  Numbers have several spellings and are left out.

  Key definitions include:
    * `Json.Textual`
    * `Json.tokens`
    * `Json.raw`

  Main declarations:
    * `Json.scan?_quote`
    * `Json.scan?_print`
    * `Json.foldlM_tokens`
    * `Json.ofText?_text`
-/

namespace Preview

namespace Json

------------------------------------------------------------
-- Tokens and Trees of Values
------------------------------------------------------------

mutual

/- A value without numbers. -/
def Textual : Json → Prop
  | null => True
  | bool _ => True
  | number _ => False
  | string _ => True
  | array items => TextualItems items
  | object fields => TextualFields fields

/- Items without numbers, all of them. -/
def TextualItems : List Json → Prop
  | [] => True
  | x :: xs => Textual x ∧ TextualItems xs

/- Fields without numbers, all of them. -/
def TextualFields : List (String × Json) → Prop
  | [] => True
  | (_, x) :: fs => Textual x ∧ TextualFields fs

end

mutual

/- The tokens of a value without numbers. -/
def tokens : Json → List Token
  | null => [.null]
  | bool b => [.bool b]
  | number _ => []
  | string s => [.string (some s)]
  | array [] => [.openArray, .closeArray]
  | array (x :: xs) => .openArray :: tokens x ++ itemTokens xs
  | object [] => [.openObject, .closeObject]
  | object ((k, x) :: fs) =>
      .openObject :: .string (some k) :: .colon ::
        tokens x ++ fieldTokens fs

/- The tokens of the items that follow the first. -/
def itemTokens : List Json → List Token
  | [] => [.closeArray]
  | x :: xs => .comma :: tokens x ++ itemTokens xs

/- The tokens of the fields that follow the first. -/
def fieldTokens : List (String × Json) → List Token
  | [] => [.closeObject]
  | (k, x) :: fs =>
      .comma :: .string (some k) :: .colon ::
        tokens x ++ fieldTokens fs

end

mutual

/- The tree of a value without numbers. -/
def raw : Json → Raw
  | null => .null
  | bool b => .bool b
  | number _ => .null
  | string s => .string (some s)
  | array items => .array (rawItems items)
  | object fields => .object (rawFields fields)

/- The items as they are written. -/
def rawItems : List Json → List Raw
  | [] => []
  | x :: xs => raw x :: rawItems xs

/- The fields as they are written. -/
def rawFields :
    List (String × Json) → List (Option String × Raw)
  | [] => []
  | (k, x) :: fs => (some k, raw x) :: rawFields fs

end

------------------------------------------------------------
-- Steps
------------------------------------------------------------

/- The tokens of a character stand before those of the rest. -/
theorem scan?_cons
    {m next : Mode}
    {c : Char}
    {ts : List Token}
    (rest : List Char)
    (hStep : m.step? c = some (ts, next)) :
    m.scan? (c :: rest) =
      (next.scan? rest).map (ts ++ ·) := by
  rw [Mode.scan?, hStep]
  change (next.scan? rest).bind (fun us => some (ts ++ us)) = _
  cases next.scan? rest <;> rfl

------------------------------------------------------------
-- Scanning Strings
------------------------------------------------------------

theorem valueIn?_hexDigit
    {n : Nat}
    (h : n < 16) :
    Digits.valueIn? 16 (hexDigit n) = some n := by
  have hAll :
      ∀ k < 16, Digits.valueIn? 16 (hexDigit k) = some k := by
    decide
  exact hAll n h

/- A short escape is scanned as the character it stands for. -/
theorem scan?_short
    (done : List Piece)
    {c e : Char}
    (rest : List Char)
    (hEscape : unescape? e = some c)
    (hShort : e ≠ 'u') :
    (Mode.inside done).scan? ('\\' :: e :: rest) =
      (Mode.inside (.char c :: done)).scan? rest := by
  simp [Mode.scan?, Mode.step?, hEscape, hShort]

/- An escaped character is scanned as that character. -/
theorem scan?_escape
    (done : List Piece)
    (c : Char)
    (rest : List Char) :
    (Mode.inside done).scan? (escape c ++ rest) =
      (Mode.inside (.char c :: done)).scan? rest := by
  unfold escape
  split
  · rename_i hQuote
    rw [hQuote]
    exact scan?_short done rest rfl (by decide)
  split
  · rename_i hSlash
    rw [hSlash]
    exact scan?_short done rest rfl (by decide)
  split
  · rename_i hCode
    rw [← Char.ofNat_toNat c, hCode]
    exact scan?_short done rest rfl (by decide)
  split
  · rename_i hCode
    rw [← Char.ofNat_toNat c, hCode]
    exact scan?_short done rest rfl (by decide)
  split
  · rename_i hCode
    rw [← Char.ofNat_toNat c, hCode]
    exact scan?_short done rest rfl (by decide)
  split
  · rename_i hCode
    rw [← Char.ofNat_toNat c, hCode]
    exact scan?_short done rest rfl (by decide)
  split
  · rename_i hCode
    rw [← Char.ofNat_toNat c, hCode]
    exact scan?_short done rest rfl (by decide)
  split
  -- a control character is escaped by its number
  · rename_i hControl
    have hHigh := valueIn?_hexDigit (n := c.toNat / 16)
      (by omega)
    have hLow := valueIn?_hexDigit (n := c.toNat % 16)
      (by omega)
    have hZero : Digits.valueIn? 16 '0' = some 0 := by decide
    have hUnit :
        Piece.ofUnit (16 * (c.toNat / 16) + c.toNat % 16) =
          .char c := by
      rw [Nat.div_add_mod]
      unfold Piece.ofUnit
      rw [if_neg (by omega), if_neg (by omega),
        Char.ofNat_toNat]
    simp [Mode.scan?, Mode.step?, hHigh, hLow, hZero, hUnit]
  · rename_i hQuote hSlash _ _ _ _ _ hControl
    simp [Mode.scan?, Mode.step?, hQuote, hSlash, hControl]

/- Inside a text, escaped characters are read back one by
   one. -/
theorem scan?_escapes
    (done : List Piece)
    (cs rest : List Char) :
    (Mode.inside done).scan? (cs.flatMap escape ++ rest) =
      (Mode.inside ((cs.map Piece.char).reverse ++ done)).scan?
        rest := by
  induction cs generalizing done with
  | nil => rfl
  | cons c cs ih =>
      rw [List.flatMap_cons, List.append_assoc, scan?_escape,
        ih]
      simp

theorem join?_chars (cs : List Char) :
    Piece.join? (cs.map Piece.char) = some cs := by
  induction cs with
  | nil => rfl
  | cons c cs ih => simp [Piece.join?, ih]

/- A quoted text is scanned as one token with that text. -/
theorem scan?_quote
    (s : String)
    (rest : List Char) :
    Mode.between.scan? (quote s ++ rest) =
      (Mode.between.scan? rest).map
        (Token.string (some s) :: ·) := by
  have hEnd :
      (Mode.inside (s.toList.map Piece.char).reverse).scan?
          ('"' :: rest) =
        (Mode.between.scan? rest).map
          (Token.string (some s) :: ·) := by
    have hStep :
        (Mode.inside (s.toList.map Piece.char).reverse).step?
            '"' =
          some ([Token.string (some s)], .between) := by
      simp [Mode.step?, join?_chars]
    exact scan?_cons rest hStep
  unfold quote
  simp only [List.cons_append, List.append_assoc,
    List.nil_append]
  rw [Mode.scan?]
  change
    ((Mode.inside []).scan?
      (s.toList.flatMap escape ++ '"' :: rest)).bind _ = _
  rw [scan?_escapes, List.append_nil, hEnd]
  simp

------------------------------------------------------------
-- Scanning Values
------------------------------------------------------------

/- A text at whose start no word can go on. -/
def EndsWord (cs : List Char) : Prop :=
  ∀ c ∈ cs.head?, isLetter c = false

/- The token of a character that stands for itself. -/
theorem scan?_mark
    {c : Char}
    {t : Token}
    (rest : List Char)
    (h : Mode.start? c = some ([t], .between)) :
    Mode.between.scan? (c :: rest) =
      (Mode.between.scan? rest).map (t :: ·) := by
  have hStep :
      Mode.between.step? c = some ([t], .between) := h
  exact scan?_cons rest hStep

/- What is left of a word is read up to its end. -/
theorem scan?_word
    (done cs rest : List Char)
    {t : Token}
    (hLetters : ∀ c ∈ cs, isLetter c = true)
    (hWord : Token.ofWord? (done.reverse ++ cs) = some t)
    (hRest : EndsWord rest) :
    (Mode.word done).scan? (cs ++ rest) =
      (Mode.between.scan? rest).map (t :: ·) := by
  induction cs generalizing done with
  | nil =>
      rw [List.append_nil] at hWord
      cases rest with
      | nil => simp [Mode.scan?, Mode.finish?, hWord]
      | cons c rest =>
          have hOther : isLetter c = false := hRest c rfl
          cases hStart : Mode.start? c with
          | none =>
              simp [Mode.scan?, Mode.step?, Mode.finish?,
                hOther, hWord, hStart]
          | some next =>
              rcases next with ⟨ts, m⟩
              have hStep : (Mode.word done).step? c =
                  some (t :: ts, m) := by
                simp [Mode.step?, Mode.finish?, hOther, hWord,
                  hStart]
              have hNext :
                  Mode.between.step? c = some (ts, m) := hStart
              rw [List.nil_append, scan?_cons rest hStep,
                scan?_cons rest hNext, Option.map_map]
              rfl
  | cons c cs ih =>
      have hLetter : isLetter c = true :=
        hLetters c (by simp)
      rw [List.cons_append, Mode.scan?]
      simp only [Mode.step?, hLetter, if_true,
        Option.bind_eq_bind, Option.bind_some]
      rw [ih (c :: done)
        (fun d hd => hLetters d (List.mem_cons_of_mem c hd))
        (by simpa using hWord)]
      simp

/- A word is read as its token. -/
theorem scan?_ofWord
    (c : Char)
    (cs rest : List Char)
    {t : Token}
    (hStart : Mode.start? c = some ([], .word [c]))
    (hLetters : ∀ d ∈ cs, isLetter d = true)
    (hWord : Token.ofWord? (c :: cs) = some t)
    (hRest : EndsWord rest) :
    Mode.between.scan? (c :: cs ++ rest) =
      (Mode.between.scan? rest).map (t :: ·) := by
  rw [List.cons_append, Mode.scan?]
  simp only [Mode.step?, hStart, Option.bind_eq_bind,
    Option.bind_some]
  rw [scan?_word [c] cs rest hLetters (by simpa using hWord)
    hRest]
  simp

/- What follows a word in an array ends it. -/
theorem endsWord_items
    (xs : List Json)
    (rest : List Char) :
    EndsWord (printItems xs ++ rest) := by
  intro c hHead
  cases xs with
  | nil =>
      cases hHead
      rfl
  | cons x xs =>
      cases hHead
      rfl

/- What follows a word in an object ends it. -/
theorem endsWord_fields
    (fs : List (String × Json))
    (rest : List Char) :
    EndsWord (printFields fs ++ rest) := by
  intro c hHead
  cases fs with
  | nil =>
      cases hHead
      rfl
  | cons f fs =>
      cases hHead
      rfl

mutual

/-
  The text of a value is scanned into its tokens, if what
  follows cannot go on a word.
-/
theorem scan?_print
    (j : Json)
    (rest : List Char)
    (hText : Textual j)
    (hRest : EndsWord rest) :
    Mode.between.scan? (print j ++ rest) =
      (Mode.between.scan? rest).map (tokens j ++ ·) := by
  match j with
  | null =>
      exact scan?_ofWord 'n' ['u', 'l', 'l'] rest rfl
        (List.all_eq_true.1 rfl) rfl hRest
  | bool true =>
      exact scan?_ofWord 't' ['r', 'u', 'e'] rest rfl
        (List.all_eq_true.1 rfl) rfl hRest
  | bool false =>
      exact scan?_ofWord 'f' ['a', 'l', 's', 'e'] rest rfl
        (List.all_eq_true.1 rfl) rfl hRest
  | number n => exact absurd hText (by simp [Textual])
  | string s => exact scan?_quote s rest
  | array [] =>
      rw [print, tokens]
      simp only [List.cons_append, List.nil_append]
      rw [scan?_mark _ rfl, scan?_mark _ rfl]
      simp [Function.comp_def]
  | array (x :: xs) =>
      rw [Textual, TextualItems] at hText
      rw [print, tokens]
      simp only [List.cons_append, List.append_assoc]
      rw [scan?_mark _ rfl,
        scan?_print x _ hText.1 (endsWord_items xs rest),
        scan?_items xs rest hText.2 hRest]
      simp [Function.comp_def]
  | object [] =>
      rw [print, tokens]
      simp only [List.cons_append, List.nil_append]
      rw [scan?_mark _ rfl, scan?_mark _ rfl]
      simp [Function.comp_def]
  | object ((k, x) :: fs) =>
      rw [Textual, TextualFields] at hText
      rw [print, tokens]
      simp only [List.cons_append, List.append_assoc]
      rw [scan?_mark _ rfl, scan?_quote, scan?_mark _ rfl,
        scan?_print x _ hText.1 (endsWord_fields fs rest),
        scan?_fields fs rest hText.2 hRest]
      simp [Function.comp_def]

theorem scan?_items
    (xs : List Json)
    (rest : List Char)
    (hText : TextualItems xs)
    (hRest : EndsWord rest) :
    Mode.between.scan? (printItems xs ++ rest) =
      (Mode.between.scan? rest).map (itemTokens xs ++ ·) := by
  match xs with
  | [] => exact scan?_mark rest rfl
  | x :: xs =>
      rw [TextualItems] at hText
      rw [printItems, itemTokens]
      simp only [List.cons_append, List.append_assoc]
      rw [scan?_mark _ rfl,
        scan?_print x _ hText.1 (endsWord_items xs rest),
        scan?_items xs rest hText.2 hRest]
      simp [Function.comp_def]

theorem scan?_fields
    (fs : List (String × Json))
    (rest : List Char)
    (hText : TextualFields fs)
    (hRest : EndsWord rest) :
    Mode.between.scan? (printFields fs ++ rest) =
      (Mode.between.scan? rest).map (fieldTokens fs ++ ·) := by
  match fs with
  | [] => exact scan?_mark rest rfl
  | (k, x) :: fs =>
      rw [TextualFields] at hText
      rw [printFields, fieldTokens]
      simp only [List.cons_append, List.append_assoc]
      rw [scan?_mark _ rfl, scan?_quote, scan?_mark _ rfl,
        scan?_print x _ hText.1 (endsWord_fields fs rest),
        scan?_fields fs rest hText.2 hRest]
      simp [Function.comp_def]

end

------------------------------------------------------------
-- Putting Tokens Together
------------------------------------------------------------

/- No value begins with the end of an array. -/
theorem tokens_head
    (j : Json)
    (hText : Textual j) :
    ∃ t ts, tokens j = t :: ts ∧ t ≠ .closeArray := by
  match j with
  | null => exact ⟨_, _, rfl, nofun⟩
  | bool b => exact ⟨_, _, rfl, nofun⟩
  | number n => exact absurd hText (by simp [Textual])
  | string s => exact ⟨_, _, rfl, nofun⟩
  | array [] => exact ⟨_, _, rfl, nofun⟩
  | array (x :: xs) => exact ⟨_, _, rfl, nofun⟩
  | object [] => exact ⟨_, _, rfl, nofun⟩
  | object ((k, x) :: fs) => exact ⟨_, _, rfl, nofun⟩

/- The first item of an array is read like any other one. -/
theorem step?_firstItem
    (stack : List Raw.Frame)
    {t : Token}
    (h : t ≠ .closeArray) :
    Raw.State.step? (.firstItem stack) t =
      Raw.State.step? (.value (.array [] :: stack)) t := by
  cases t with
  | closeArray => exact absurd rfl h
  | openObject | openArray | closeObject | comma | colon
  | null | bool b | number n | string s => rfl

mutual

/- The tokens of a value put its tree where it belongs. -/
theorem foldlM_tokens
    (j : Json)
    (stack : List Raw.Frame)
    (hText : Textual j) :
    (tokens j).foldlM Raw.State.step? (.value stack) =
      some (Raw.put (raw j) stack) := by
  match j with
  | null => rfl
  | bool b => rfl
  | number n => exact absurd hText (by simp [Textual])
  | string s => rfl
  | array [] => rfl
  | array (x :: xs) =>
      rw [Textual, TextualItems] at hText
      rcases tokens_head x hText.1 with
        ⟨t, ts, hTokens, hOther⟩
      have hFirst :=
        foldlM_tokens x (.array [] :: stack) hText.1
      rw [hTokens, List.foldlM_cons,
        ← step?_firstItem stack hOther, ← List.foldlM_cons,
        ← hTokens] at hFirst
      rw [tokens, List.cons_append, List.foldlM_cons]
      change
        (tokens x ++ itemTokens xs).foldlM Raw.State.step?
          (.firstItem stack) = _
      rw [List.foldlM_append, hFirst]
      exact foldlM_items xs [raw x] stack hText.2
  | object [] => rfl
  | object ((k, x) :: fs) =>
      rw [Textual, TextualFields] at hText
      rw [tokens, List.cons_append, List.cons_append,
        List.cons_append, List.foldlM_cons]
      change
        (tokens x ++ fieldTokens fs).foldlM Raw.State.step?
          (.value (.object [] (some k) :: stack)) = _
      rw [List.foldlM_append, foldlM_tokens x _ hText.1]
      exact foldlM_fields fs [(some k, raw x)] stack hText.2

/- The items are read onto those done, and the array is
   closed. -/
theorem foldlM_items
    (xs : List Json)
    (done : List Raw)
    (stack : List Raw.Frame)
    (hText : TextualItems xs) :
    (itemTokens xs).foldlM Raw.State.step?
        (.more (.array done) stack) =
      some
        (Raw.put (.array (done.reverse ++ rawItems xs))
          stack) := by
  match xs with
  | [] => simp [itemTokens, Raw.State.step?, rawItems]
  | x :: xs =>
      rw [TextualItems] at hText
      rw [itemTokens, List.cons_append, List.foldlM_cons]
      change
        (tokens x ++ itemTokens xs).foldlM Raw.State.step?
          (.value (.array done :: stack)) = _
      rw [List.foldlM_append, foldlM_tokens x _ hText.1]
      change
        (itemTokens xs).foldlM Raw.State.step?
          (.more (.array (raw x :: done)) stack) = _
      rw [foldlM_items xs _ stack hText.2]
      simp [rawItems]

/- The fields are read onto those done, and the object is
   closed. -/
theorem foldlM_fields
    (fs : List (String × Json))
    (done : List (Option String × Raw))
    (stack : List Raw.Frame)
    (hText : TextualFields fs) :
    (fieldTokens fs).foldlM Raw.State.step?
        (.more (.object done none) stack) =
      some
        (Raw.put (.object (done.reverse ++ rawFields fs))
          stack) := by
  match fs with
  | [] => simp [fieldTokens, Raw.State.step?, rawFields]
  | (k, x) :: fs =>
      rw [TextualFields] at hText
      rw [fieldTokens, List.cons_append, List.cons_append,
        List.cons_append, List.foldlM_cons]
      change
        (tokens x ++ fieldTokens fs).foldlM Raw.State.step?
          (.value (.object done (some k) :: stack)) = _
      rw [List.foldlM_append, foldlM_tokens x _ hText.1]
      change
        (fieldTokens fs).foldlM Raw.State.step?
          (.more (.object ((some k, raw x) :: done) none)
            stack) = _
      rw [foldlM_fields fs _ stack hText.2]
      simp [rawFields]

end

/- The text of a value without numbers is read as its tree. -/
theorem ofText?_text
    (j : Json)
    (hText : Textual j) :
    Raw.ofText? j.text = some (raw j) := by
  have hScan :=
    scan?_print j [] hText (fun c hHead => by cases hHead)
  rw [List.append_nil] at hScan
  unfold Raw.ofText? text Token.scan?
  rw [String.toList_ofList, hScan]
  simp only [Mode.scan?, Mode.finish?, Option.map_some,
    List.append_nil, Option.bind_eq_bind, Option.bind_some]
  unfold Raw.ofTokens?
  rw [foldlM_tokens j [] hText]
  rfl

end Json

end Preview
