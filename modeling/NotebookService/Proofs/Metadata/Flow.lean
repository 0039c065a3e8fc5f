/-
# `NotebookService.Proofs.Metadata.Flow` — flow collections that are read back

A flow collection is cut at its commas, and each of its parts is read by itself.  When
the parts stand by themselves, the cutting gives back the parts that were joined, and
the collection is legible as soon as each part is read.

A part with a colon is a pair where the colon ends a key, and plain text where something
follows the colon at once.
-/
import NotebookService.Proofs.Metadata.Scalar
import NotebookService.Proofs.Text.Nesting

namespace NotebookService.Metadata

open NotebookService.Text

variable {s t : List Char}

/-! ## Colons inside words -/

theorem holdsKeyColon_append_colon (hs : ':' ∉ s) (ht : holdsKeyColon t = false)
    (hh : t.head?.any (· ≠ ' ') = true) : holdsKeyColon (s ++ ':' :: t) = false := by
  induction s with
  | nil =>
      cases t with
      | nil => cases hh
      | cons c t =>
          have hc : c ≠ ' ' := by simpa using hh
          rw [List.nil_append, holdsKeyColon, ht]
          simp [hc]
  | cons c s ih =>
      obtain ⟨hc, hs⟩ := not_or.1 (mt List.mem_cons.2 hs)
      obtain ⟨d, u, hd⟩ := List.exists_cons_of_ne_nil (l := s ++ ':' :: t) (by simp)
      have hr := ih hs
      rw [hd] at hr
      rw [List.cons_append, hd, holdsKeyColon, hr]
      simp [Ne.symm hc]

/-- Where no colon could end a key, none does, however many brackets are open. -/
theorem splitAtColon?_eq_none_of_holdsKeyColon (h : holdsKeyColon s = false)
    (depth : Nat) :
    splitAtColon? depth s = none := by
  induction s generalizing depth with
  | nil => rfl
  | cons c s ih =>
      have hs : holdsKeyColon s = false ∧
          ¬ (c = ':' ∧ (s = [] ∨ s.head? = some ' ')) := by
        cases s with
        | nil =>
            have hc : c ≠ ':' := by simpa [holdsKeyColon] using h
            exact ⟨rfl, fun he => hc he.1⟩
        | cons d s =>
            rw [holdsKeyColon, Bool.or_eq_false_iff] at h
            have hd : ¬ (c = ':' ∧ d = ' ') := by simpa using h.1
            exact ⟨h.2, fun he => hd ⟨he.1, by simpa using he.2⟩⟩
      rw [splitAtColon?, if_neg fun he => hs.2 ⟨he.1, he.2.2⟩]
      simp only [ih hs.1, Option.map_none]

theorem splitKey?_eq_none_of_splitAtColon? (hq : ∀ c ∈ s.head?, Nesting.isQuote c = false)
    (h : splitAtColon? 0 s = none) : splitKey? s = none := by
  cases s with
  | nil => rfl
  | cons c s =>
      have hc : Nesting.isQuote c = false := hq c rfl
      rw [splitKey?, splitAfterQuote?, if_neg (by simp [hc]), h]
      rfl

/-! ## Parts -/

/-- The text is passed over by the comment stripper, which is outside of
strings behind it. -/
def PassedOver (s : List Char) : Prop :=
  ∀ b t, ∃ b', uncommented b none (s ++ t) = s ++ uncommented b' none t

theorem NoComment.passedOver (h : NoComment s) : PassedOver s :=
  fun b t => exists_uncommented_append h b t

theorem PassedOver.append (hs : PassedOver s) (ht : PassedOver t) :
    PassedOver (s ++ t) := by
  intro b u
  obtain ⟨b', hb'⟩ := hs b (t ++ u)
  obtain ⟨b'', hb''⟩ := ht b' u
  exact ⟨b'', by rw [List.append_assoc, hb', hb'', List.append_assoc]⟩

theorem PassedOver.uncommented_eq (h : PassedOver s) (b : Bool) :
    uncommented b none s = s := by
  obtain ⟨b', hb'⟩ := h b []
  simpa [uncommented] using hb'

theorem passedOver_joined {ps : List (List Char)} (h : ∀ p ∈ ps, PassedOver p) :
    PassedOver (joined ps) := by
  induction ps with
  | nil =>
      intro b t
      exact ⟨b, rfl⟩
  | cons p ps ih =>
      obtain ⟨hp, hps⟩ := List.forall_mem_cons.1 h
      cases ps with
      | nil => rwa [joined_singleton]
      | cons q ps =>
          have hcomma : PassedOver [',', ' '] := NoComment.passedOver (by decide)
          rw [joined_cons_cons]
          exact hp.append (hcomma.append (ih hps))

/-- A part of a flow collection that comes out of the collection as it went in. -/
structure StandsAlone (p : List Char) : Prop where
  ne_nil : p ≠ []
  trim_eq : trim p = p
  whole : IsWhole p
  passed : PassedOver p

theorem flowParts_joined {ps : List (List Char)} (hne : ps ≠ [])
    (h : ∀ p ∈ ps, StandsAlone p) :
    flowParts (joined ps) = ps := by
  have hs : splitTopLevel (joined ps) = ps :=
    splitTopLevel_joined_of_isWhole hne fun p hp => ⟨(h p hp).trim_eq, (h p hp).whole⟩
  rw [flowParts, hs, List.filter_eq_self]
  intro p hp
  simpa using (h p hp).ne_nil

theorem upToLast?_concat (c : Char) (s : List Char) :
    upToLast? c (s ++ [c]) = some s := by
  simp [upToLast?]

theorem readPair_append {name : String} {v : Value} (hn : IsWord name)
    (hv : Legible v s) :
    readPair (name.toList ++ ':' :: ' ' :: s) = .ok (keyText name, v) := by
  have hs := hn.splitKey?_append (t := ' ' :: s) (.inr rfl)
  rw [trim_cons_of_isBlank rfl, hv.trim_eq] at hs
  rw [readPair.eq_def]
  split
  · rename_i key rest h
    rw [hs] at h
    cases h
    simp [hn.readKey_eq, hv.ne_nil, hv.readInline_eq, bind, Except.bind,
      pure, Except.pure]
  · rename_i h
    rw [hs] at h
    cases h

/-- In a sequence such a pair is a mapping of its own. -/
theorem readItem_append {name : String} {v : Value} (hn : IsWord name)
    (hv : Legible v s) :
    readItem (name.toList ++ ':' :: ' ' :: s) = .ok (.map [(keyText name, v)]) := by
  have hs : (splitKey? (name.toList ++ ':' :: ' ' :: s)).isSome = true := by
    rw [hn.splitKey?_append (.inr rfl)]
    rfl
  rw [readItem, if_pos (by simp [hn.startsFlow_append, hs]), readPair_append hn hv]
  rfl

variable {α : Type} {text : α → List Char} {xs : List α}

theorem readItems_map {item : α → Value}
    (h : ∀ x ∈ xs, readItem (text x) = .ok (item x)) :
    readItems (xs.map text) = .ok (xs.map item) := by
  induction xs with
  | nil => rw [List.map_nil, readItems, List.map_nil]
  | cons x xs ih =>
      obtain ⟨hx, hxs⟩ := List.forall_mem_cons.1 h
      rw [List.map_cons, readItems, hx, ih hxs]
      rfl

theorem readPairs_map {entry : α → String × Value}
    (h : ∀ x ∈ xs, readPair (text x) = .ok (entry x)) :
    readPairs (xs.map text) = .ok (xs.map entry) := by
  induction xs with
  | nil => rw [List.map_nil, readPairs, List.map_nil]
  | cons x xs ih =>
      obtain ⟨hx, hxs⟩ := List.forall_mem_cons.1 h
      rw [List.map_cons, readPairs, hx, ih hxs]
      rfl

/-! ## Collections -/

theorem rowText_bracketed {opening closing : Char} {ps : List (List Char)}
    (h : ∀ p ∈ ps, StandsAlone p) (ho : isBlank opening = false ∧ NoComment [opening])
    (hc : isBlank closing = false ∧ NoComment [closing]) :
    RowText (opening :: (joined ps ++ [closing])) where
  ne_nil := List.cons_ne_nil _ _
  trim_eq := trim_cons_concat ho.1 hc.1 _
  uncommented_eq := by
    have hparts : PassedOver (joined ps) := passedOver_joined fun p hp => (h p hp).passed
    have hall : PassedOver ([opening] ++ (joined ps ++ [closing])) :=
      ho.2.passedOver.append (hparts.append hc.2.passedOver)
    exact hall.uncommented_eq true

theorem readTrimmed_brackets (s : List Char) :
    readTrimmed ('[' :: (s ++ [']'])) = (readItems (flowParts s)).map Value.list := by
  rw [readTrimmed]
  split
  · rename_i h
    rw [upToLast?_concat] at h
    cases h
  · rename_i inner h
    rw [upToLast?_concat] at h
    cases h
    rfl

theorem readTrimmed_braces (s : List Char) :
    readTrimmed ('{' :: (s ++ ['}'])) = (readPairs (flowParts s)).map Value.map := by
  rw [readTrimmed]
  split
  · rename_i h
    rw [upToLast?_concat] at h
    cases h
  · rename_i inner h
    rw [upToLast?_concat] at h
    cases h
    rfl

theorem readTrimmed_unclosed (h : s.getLast? ≠ some ']') :
    readTrimmed ('[' :: s) = .error .unterminatedSequence := by
  rw [readTrimmed]
  split
  · rfl
  · rename_i inner hi
    rw [upToLast?, if_neg h] at hi
    cases hi

theorem readInline_bracket (s : List Char) :
    readInline ('[' :: s) = readTrimmed ('[' :: trimEnd s) := by
  have ht : trim ('[' :: s) = '[' :: trimEnd s := by
    rw [trim_cons_of_not rfl]
    exact trimEnd_append_cons_of_not (c := '[') rfl [] s
  rw [readInline, ht]

theorem readInline_brackets (s : List Char) :
    readInline ('[' :: (s ++ [']'])) = (readItems (flowParts s)).map Value.list := by
  rw [readInline, trim_cons_concat rfl rfl, readTrimmed_brackets]

theorem readInline_braces (s : List Char) :
    readInline ('{' :: (s ++ ['}'])) = (readPairs (flowParts s)).map Value.map := by
  rw [readInline, trim_cons_concat rfl rfl, readTrimmed_braces]

variable {ps : List (List Char)}

theorem Legible.flowSequence {vs : List Value} (hne : ps ≠ [])
    (h : ∀ p ∈ ps, StandsAlone p) (hv : readItems ps = .ok vs) :
    Legible (.list vs) ('[' :: (joined ps ++ [']'])) where
  toRowText := rowText_bracketed h (by decide) (by decide)
  readInline_eq := by
    have hp := flowParts_joined hne h
    rw [readInline_brackets, hp, hv]
    rfl
  not_key := .inl rfl

theorem Legible.flowMapping {es : List (String × Value)} (hne : ps ≠ [])
    (h : ∀ p ∈ ps, StandsAlone p) (hv : readPairs ps = .ok es) :
    Legible (.map es) ('{' :: (joined ps ++ ['}'])) where
  toRowText := rowText_bracketed h (by decide) (by decide)
  readInline_eq := by
    have hp := flowParts_joined hne h
    rw [readInline_braces, hp, hv]
    rfl
  not_key := .inl rfl

end NotebookService.Metadata
