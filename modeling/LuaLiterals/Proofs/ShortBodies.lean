import LuaLiterals.Proofs.LongBodies

/-!
Inside a short literal, counted in units. A unit is a character that neither ends the literal nor
escapes, or a backslash with the character behind it, so whether a quote ends the literal depends on
how the backslashes in front of it pair up. `Grammar.LongestUnits` says how far units reach, and
`exists_longestUnits` that the text between quotes reaches as far, and over one backslash more if
that one stands at the end of the line. With what the scans of a short literal yield this gives the
main statement `ends_at_first_quote_or_line`.
-/

set_option autoImplicit false
set_option relaxedAutoImplicit false

namespace LuaLiterals

namespace Grammar

/-- A text that falls into units. -/
inductive Units (quote : Quote) : List Char → Prop
  | nil : Units quote []
  | plain {c : Char} {text : List Char} (hquote : c ≠ quote.char) (hescape : c ≠ '\\')
      (hline : c ≠ '\n') (behind : Units quote text) : Units quote (c :: text)
  | escaped {c : Char} {text : List Char} (hline : c ≠ '\n') (behind : Units quote text) :
      Units quote ('\\' :: c :: text)

/-- The front of the text falls into units, and no longer one does. -/
structure LongestUnits (quote : Quote) (text front rest : List Char) : Prop where
  whole : text = front ++ rest
  units : Units quote front
  longest : ∀ other, Units quote other → other <+: text → other.length ≤ front.length

/-- A backslash at the end of its line, which takes no character with it. -/
def loneBackslash : List Char → List Char
  | ['\\'] => ['\\']
  | '\\' :: '\n' :: _ => ['\\']
  | _ => []

/-- No unit begins here. -/
def NoUnit (quote : Quote) (text : List Char) : Prop :=
  ∀ other, Units quote other → other <+: text → other = []

variable {quote : Quote} {text front rest : List Char} {c : Char}

theorem Units.no_line (h : Units quote text) : '\n' ∉ text := by
  induction h with
  | nil => exact List.not_mem_nil
  | plain _ _ hline _ ih => exact List.not_mem_cons_of_ne_of_not_mem hline.symm ih
  | escaped hline _ ih =>
    refine List.not_mem_cons_of_ne_of_not_mem (by decide) ?_
    exact List.not_mem_cons_of_ne_of_not_mem hline.symm ih

theorem LongestUnits.unique {other behind : List Char} (h : LongestUnits quote text front rest)
    (hother : LongestUnits quote text other behind) : front = other ∧ rest = behind := by
  have hlength : front.length = other.length :=
    Nat.le_antisymm (hother.longest _ h.units ⟨rest, h.whole.symm⟩)
      (h.longest _ hother.units ⟨behind, hother.whole.symm⟩)
  exact List.append_inj (h.whole.symm.trans hother.whole) hlength

/-! ### Where units stop -/

theorem noUnit_nil : NoUnit quote [] := fun _ _ hprefix ↦ List.prefix_nil.mp hprefix

/-- At the closing quote and at the end of the line no unit begins. -/
theorem noUnit_cons (hstop : c = quote.char ∨ c = '\n') : NoUnit quote (c :: text) := by
  intro other hunits hprefix
  cases hunits with
  | nil => rfl
  | plain hquote _ hline _ =>
    obtain ⟨rfl, -⟩ := List.cons_prefix_cons.mp hprefix
    exact absurd hstop (not_or.mpr ⟨hquote, hline⟩)
  | escaped _ _ =>
    obtain ⟨rfl, -⟩ := List.cons_prefix_cons.mp hprefix
    rcases hstop with hquote | hline
    · exact absurd hquote (Phase.char_ne_backslash quote)
    · exact absurd hline (by decide)

/-- Nor does one at a backslash that takes no character with it. -/
theorem noUnit_backslash (hline : ∀ c ∈ text.head?, c = '\n') : NoUnit quote ('\\' :: text) := by
  intro other hunits hprefix
  cases hunits with
  | nil => rfl
  | plain _ hescape _ _ => exact absurd (List.cons_prefix_cons.mp hprefix).1 hescape
  | escaped hother _ =>
    obtain ⟨behind, hbehind⟩ := (List.cons_prefix_cons.mp hprefix).2
    exact absurd (hline _ (by rw [← hbehind]; rfl)) hother

/-- Units in front of a place where none begins cannot be continued. -/
theorem longestUnits_of_noUnit (hunits : Units quote front) (hstop : NoUnit quote rest) :
    LongestUnits quote (front ++ rest) front rest := by
  refine ⟨rfl, hunits, ?_⟩
  induction hunits with
  | nil =>
    intro other hother hprefix
    obtain rfl := hstop other hother hprefix
    exact Nat.le_refl _
  | plain _ hescape _ _ ih =>
    intro other hother hprefix
    cases hother with
    | nil => exact Nat.zero_le _
    | plain _ _ _ hbehind =>
      exact Nat.succ_le_succ (ih _ hbehind (List.cons_prefix_cons.mp hprefix).2)
    | escaped _ _ => exact absurd (List.cons_prefix_cons.mp hprefix).1.symm hescape
  | escaped _ _ ih =>
    intro other hother hprefix
    cases hother with
    | nil => exact Nat.zero_le _
    | plain _ hescape _ _ => exact absurd (List.cons_prefix_cons.mp hprefix).1 hescape
    | escaped _ hbehind =>
      have htail := (List.cons_prefix_cons.mp hprefix).2
      exact Nat.add_le_add_right (ih _ hbehind (List.cons_prefix_cons.mp htail).2) 2

theorem loneBackslash_of_ne (h : c ≠ '\\') : loneBackslash (c :: text) = [] := by
  unfold loneBackslash
  split
  next heq => exact absurd (List.cons.inj heq).1 h
  next heq => exact absurd (List.cons.inj heq).1 h
  next => rfl

theorem loneBackslash_eq (text : List Char) :
    loneBackslash text = [] ∨ loneBackslash text = ['\\'] := by
  unfold loneBackslash
  split
  next => exact Or.inr rfl
  next => exact Or.inr rfl
  next => exact Or.inl rfl

/-- The text between quotes consists of units and then of a backslash that takes no character with
it, if one stands there. -/
theorem exists_longestUnits (quote : Quote) (text : List Char) :
    ∃ front rest, LongestUnits quote text front rest ∧
      (quotedBody quote text).1 = front ++ loneBackslash rest := by
  suffices h : ∃ front rest, text = front ++ rest ∧ Units quote front ∧ NoUnit quote rest ∧
      (quotedBody quote text).1 = front ++ loneBackslash rest by
    obtain ⟨front, rest, rfl, hunits, hstop, hbody⟩ := h
    exact ⟨front, rest, longestUnits_of_noUnit hunits hstop, hbody⟩
  -- By the reader's cases: it stops where no unit begins, and takes a backslash there along.
  fun_induction quotedBody quote text with
  | case1 => exact ⟨[], [], rfl, .nil, noUnit_nil, rfl⟩
  | case2 => exact ⟨[], ['\\'], rfl, .nil, noUnit_backslash (fun _ hc ↦ by cases hc), rfl⟩
  | case3 text =>
    refine ⟨[], '\\' :: '\n' :: text, rfl, .nil, noUnit_backslash (fun _ hc ↦ ?_), rfl⟩
    exact (Option.some.inj hc).symm
  | case4 c text hline body behind heq ih =>
    obtain ⟨front, rest, rfl, hunits, hstop, hbody⟩ := ih
    rw [heq] at hbody
    exact ⟨'\\' :: c :: front, rest, rfl, .escaped hline hunits, hstop,
      congrArg ('\\' :: c :: ·) hbody⟩
  | case5 c text hlone hpair hstop =>
    have hescape := ne_backslash_of_cases hlone hpair
    exact ⟨[], c :: text, rfl, .nil, noUnit_cons hstop, (loneBackslash_of_ne hescape).symm⟩
  | case6 c text hlone hpair hpass body behind heq ih =>
    have hescape := ne_backslash_of_cases hlone hpair
    obtain ⟨front, rest, rfl, hunits, hstop, hbody⟩ := ih
    rw [heq] at hbody
    rw [not_or] at hpass
    exact ⟨c :: front, rest, rfl, .plain hpass.1 hescape hpass.2 hunits, hstop,
      congrArg (c :: ·) hbody⟩

theorem no_line_quotedBody (quote : Quote) (text : List Char) :
    '\n' ∉ (quotedBody quote text).1 := by
  obtain ⟨front, rest, hlongest, hbody⟩ := exists_longestUnits quote text
  rw [hbody, List.mem_append, not_or]
  refine ⟨hlongest.units.no_line, ?_⟩
  rcases loneBackslash_eq rest with hnone | hlone
  · rw [hnone]
    exact List.not_mem_nil
  · rw [hlone]
    decide

end Grammar

namespace Reader

open Grammar Recognizer

/-- What a scan leaves behind that ends an open literal with this quote. -/
def pastQuote (reader : Reader) (recognizer : Recognizer) (quote : Quote) : Outcome where
  token := some ⟨.closing, reader.position, reader.position.next quote.char, [quote.char]⟩
  reader := reader.advance 1
  recognizer := { recognizer with opened := none }

variable {reader : Reader} {recognizer : Recognizer} {offer : Offer} {quote : Quote}

theorem scan_of_quote (hentry : recognizer.entry offer = .quoted quote false)
    (hclosing : offer.closing = true) (h : reader.ahead.head? = some quote.char) :
    reader.scan recognizer offer = reader.pastQuote recognizer quote := by
  obtain ⟨rest, hrest⟩ := List.head?_eq_some_iff.mp h
  have hyields : recognizer.Yields offer (quote.char :: rest) [] .closing [quote.char] rest :=
    yields_short_closing hentry hclosing
  rw [← hrest] at hyields
  rw [scan_of_yields hyields, pastQuote, advance, hrest]
  rfl

/-- Inside a short literal a scan takes the units ahead, with a backslash behind them if that one
stands at the end of the line, and stops in front of the closing quote, a line feed or the end of
the source. Where there are none the closing quote is the end of the literal; if it is missing too,
the literal stays open and nothing is taken. -/
theorem ends_at_first_quote_or_line (hopened : recognizer.opened = some (.short quote))
    (hcontent : offer.content = true) (hclosing : offer.closing = true)
    (hpart : offer.isRecovery = false) :
    ∃ front rest, LongestUnits quote reader.ahead front rest ∧
      let body := front ++ loneBackslash rest
      (body ≠ [] →
        reader.scan recognizer offer = reader.pastContent recognizer body.length ∧
          body <+: reader.ahead ∧ '\n' ∉ body ∧
          ∀ c ∈ (reader.ahead.drop body.length).head?, c = quote.char ∨ c = '\n') ∧
      (body = [] → reader.ahead.head? = some quote.char →
        reader.scan recognizer offer = reader.pastQuote recognizer quote) ∧
      (body = [] → reader.ahead.head? ≠ some quote.char →
        reader.scan recognizer offer = ⟨none, reader, recognizer⟩) := by
  have hentry : recognizer.entry offer = .quoted quote false :=
    entry_of_opened hopened (by simp [Offer.continues, hcontent]) hpart
  obtain ⟨front, rest, hlongest, hbody⟩ := exists_longestUnits quote reader.ahead
  have happend := quotedBody_append quote reader.ahead
  have hhead := head_quotedBody quote reader.ahead
  refine ⟨front, rest, hlongest, ?_⟩
  simp only [← hbody]
  refine ⟨fun hne ↦ ⟨?_, ⟨_, happend⟩, no_line_quotedBody quote reader.ahead, ?_⟩, ?_, ?_⟩
  · exact pastToken_of_yields (yields_short_content hentry hcontent hne)
  · have hdrop := congrArg (List.drop (quotedBody quote reader.ahead).1.length) happend
    rw [List.drop_left] at hdrop
    exact hdrop ▸ hhead
  · exact fun _ hquote ↦ scan_of_quote hentry hclosing hquote
  · intro hempty hquote
    rw [hempty, List.nil_append] at happend
    rw [happend] at hhead
    exact scan_of_found_none (declines_short hentry (head_eq_line hhead hquote))

/-- The quote behind three backslashes is escaped by the last of them, the other quote ends nothing,
and the backslash at the end of the line is part of the text. -/
theorem ends_at_first_quote_or_line_of_backslashes :
    let reader := Reader.ofSource ['\\', '\\', '\\', '\'', '"', '\\', '\n', '\'']
    let recognizer : Recognizer := ⟨.plain, some (.short .single)⟩
    LongestUnits .single reader.ahead (reader.ahead.take 5) (reader.ahead.drop 5) ∧
      reader.scan recognizer .inside = reader.pastContent recognizer 6 := by
  intro reader recognizer
  have hunits : Units .single (reader.ahead.take 5) :=
    .escaped (by decide) (.escaped (by decide)
      (.plain (by decide) (by decide) (by decide) .nil))
  have hstop : NoUnit .single (reader.ahead.drop 5) :=
    noUnit_backslash fun _ hc ↦ (Option.some.inj hc).symm
  have hlongest : LongestUnits .single reader.ahead (reader.ahead.take 5)
      (reader.ahead.drop 5) := longestUnits_of_noUnit hunits hstop
  obtain ⟨front, rest, hfront, hbody, -⟩ :=
    @ends_at_first_quote_or_line reader recognizer .inside .single rfl rfl rfl rfl
  obtain ⟨rfl, rfl⟩ := hfront.unique hlongest
  exact ⟨hlongest, (hbody (by decide)).1⟩

end Reader

end LuaLiterals
