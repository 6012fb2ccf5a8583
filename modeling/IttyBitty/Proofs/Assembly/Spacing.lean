import IttyBitty.Proofs.Assembly.Grammar

/-!
# Blanks and comments of a line

Which changes to a line leave its tokens alone: other blanks in front of them, behind them
or between two of them, and another comment or none. Behind the colon of a label the
statement begins, so blanks there do not matter either.
-/

namespace IttyBitty.Assembly

/-! ## Comments -/

theorem beforeComment_cons (c : Char) (rest : Text) :
    beforeComment (c :: rest) =
      if c = '/' ∧ rest.head? = some '/' then [] else c :: beforeComment rest := by
  cases rest with
  | nil => simp [beforeComment]
  | cons d rest =>
      by_cases hc : c = '/'
      · by_cases hd : d = '/' <;> simp [beforeComment, hc, hd]
      · simp [beforeComment, hc]

/-- A comment that starts in a text starts there with any text behind it; if there is none,
a character that is no slash parts what may hold one from what does not. -/
theorem beforeComment_append {c : Char} (hc : c ≠ '/') (s t : Text) :
    beforeComment (s ++ c :: t) =
      if beforeComment s = s then s ++ c :: beforeComment t else beforeComment s := by
  induction s with
  | nil => simp [beforeComment_cons, beforeComment, hc]
  | cons d s ih =>
      have hhead : (s ++ c :: t).head? = some '/' ↔ s.head? = some '/' := by
        cases s <;> simp [hc]
      rw [List.cons_append, beforeComment_cons, beforeComment_cons, ih]
      by_cases hslashes : d = '/' ∧ s.head? = some '/'
      · rw [if_pos hslashes, if_pos ⟨hslashes.1, hhead.mpr hslashes.2⟩]
        simp
      · rw [if_neg hslashes, if_neg (fun h => hslashes ⟨h.1, hhead.mp h.2⟩)]
        by_cases hs : beforeComment s = s <;> simp [hs]

theorem head?_beforeComment {raw : Text} (h : (beforeComment raw).head? = some '/') :
    raw.head? = some '/' := by
  cases raw with
  | nil => exact h
  | cons c rest =>
      rw [beforeComment_cons] at h
      split at h
      · cases h
      · exact h

theorem beforeComment_idempotent (raw : Text) :
    beforeComment (beforeComment raw) = beforeComment raw := by
  induction raw with
  | nil => rfl
  | cons c rest ih =>
      rw [beforeComment_cons]
      by_cases hslashes : c = '/' ∧ rest.head? = some '/'
      · rw [if_pos hslashes]
        rfl
      · rw [if_neg hslashes, beforeComment_cons, ih,
          if_neg fun h => hslashes ⟨h.1, head?_beforeComment h.2⟩]

theorem mem_of_mem_beforeComment {raw : Text} {c : Char} (h : c ∈ beforeComment raw) :
    c ∈ raw := by
  induction raw with
  | nil => exact h
  | cons d rest ih =>
      rw [beforeComment_cons] at h
      split at h
      · cases h
      · exact List.mem_cons.mpr ((List.mem_cons.mp h).imp_right ih)

/-- What a comment says does not matter. -/
theorem beforeComment_slashes (s old new : Text) :
    beforeComment (s ++ '/' :: '/' :: old) = beforeComment (s ++ '/' :: '/' :: new) := by
  induction s with
  | nil => rfl
  | cons c s ih =>
      have hhead : (s ++ '/' :: '/' :: old).head? = (s ++ '/' :: '/' :: new).head? := by
        cases s <;> rfl
      rw [List.cons_append, List.cons_append, beforeComment_cons, beforeComment_cons, ih, hhead]

/-! ## Blanks -/

/-- Blanks within a line. -/
def IsGap (gap : Text) : Prop := ∀ c ∈ gap, isBlank c = true ∧ c ≠ '\n'

theorem isGap_nil : IsGap [] := nofun

theorem ne_slash_of_isBlank {c : Char} (hc : isBlank c = true) : c ≠ '/' := by
  rintro rfl
  cases hc

/-- **A blank parts the tokens**: those behind it count unless a comment has started. -/
theorem tokens_append {c : Char} (hc : isBlank c = true) (s t : Text) :
    tokens (s ++ c :: t) = tokens s ++ if beforeComment s = s then tokens t else [] := by
  rw [tokens, beforeComment_append (ne_slash_of_isBlank hc), tokens]
  by_cases hs : beforeComment s = s
  · rw [if_pos hs, if_pos hs, List.splitOnP_append_cons _ _ hc, List.filter_append, hs, tokens]
  · rw [if_neg hs, if_neg hs, List.append_nil]

/-- Blanks in front of a line are dropped. -/
theorem tokens_gap_append {gap : Text} (h : IsGap gap) (t : Text) :
    tokens (gap ++ t) = tokens t := by
  induction gap with
  | nil => rfl
  | cons c gap ih =>
      obtain ⟨hc, hgap⟩ := List.forall_mem_cons.mp h
      have hempty : beforeComment [] = [] := rfl
      have hnone : tokens [] = [] := rfl
      rw [List.cons_append, ← List.nil_append (c :: (gap ++ t)), tokens_append hc.1, hnone,
        List.nil_append, if_pos hempty, ih hgap]

theorem tokens_gap {gap : Text} (h : IsGap gap) : tokens gap = [] := by
  rw [← List.append_nil gap, tokens_gap_append h]
  rfl

/-- A line of nothing but blanks and a comment has no tokens. -/
theorem tokens_of_gap {raw : Text} (h : IsGap (beforeComment raw)) : tokens raw = [] := by
  have hgap := tokens_gap h
  rwa [tokens, beforeComment_idempotent] at hgap

/-- Blanks between two parts of a line only part them. -/
theorem tokens_append_gap {gap : Text} (h : IsGap gap) (hgap : gap ≠ []) (s t : Text) :
    tokens (s ++ (gap ++ t)) = tokens s ++ if beforeComment s = s then tokens t else [] := by
  cases gap with
  | nil => exact absurd rfl hgap
  | cons c gap =>
      obtain ⟨hc, hrest⟩ := List.forall_mem_cons.mp h
      rw [List.cons_append, tokens_append hc.1, tokens_gap_append hrest]

/-- Blanks behind a line are dropped. -/
theorem tokens_append_gap_nil {gap : Text} (h : IsGap gap) (s : Text) :
    tokens (s ++ gap) = tokens s := by
  cases gap with
  | nil => rw [List.append_nil]
  | cons c gap =>
      have hsplit := tokens_append_gap h (List.cons_ne_nil c gap) s []
      rw [List.append_nil] at hsplit
      rw [hsplit]
      split <;> exact List.append_nil _

/-- A comment may stand in front of everything or behind a blank. -/
theorem tokens_append_comment {s : Text} (h : ∀ c ∈ s.getLast?, isBlank c = true) (t : Text) :
    tokens (s ++ '/' :: '/' :: t) = tokens s := by
  rcases List.eq_nil_or_concat s with rfl | ⟨u, c, rfl⟩
  · rfl
  · rw [List.concat_eq_append] at h ⊢
    have hc : isBlank c = true := h c (by simp)
    have hcomment : tokens ('/' :: '/' :: t) = [] := rfl
    rw [List.append_assoc, List.singleton_append, tokens_append hc, tokens_append hc, hcomment]
    rfl

/-! ## Labels -/

/-- A text that can stand in front of the first colon of a line. -/
structure IsName (name : Text) : Prop where
  visible : ∀ c ∈ name, isBlank c = false
  colonless : ':' ∉ name
  uncommented : beforeComment name = name

/-- A text can be checked for being a name. -/
theorem isName_of_all {name : Text} (hvisible : name.all isVisible = true) (hcolon : ':' ∉ name)
    (hcomment : beforeComment name = name) : IsName name :=
  ⟨fun c hc => by simpa [isVisible] using List.all_eq_true.mp hvisible c hc, hcolon, hcomment⟩

theorem tokens_definition {name : Text} (h : IsName name) (rest : Text) :
    ∃ word more, (beforeComment rest).splitOnP isBlank = word :: more ∧
      tokens (name ++ ':' :: rest) =
        (name ++ ':' :: word) :: more.filter fun token => token ≠ [] := by
  obtain ⟨word, more, hsplit⟩ :=
    List.exists_cons_of_ne_nil (List.splitOnP_ne_nil isBlank (beforeComment rest))
  refine ⟨word, more, hsplit, ?_⟩
  have hglued : ∀ name : Text, (∀ c ∈ name, isBlank c = false) →
      (name ++ ':' :: beforeComment rest).splitOnP isBlank = (name ++ ':' :: word) :: more := by
    intro name hname
    induction name with
    | nil =>
        rw [List.nil_append, List.splitOnP_cons_eq_if_modifyHead, if_neg (by decide), hsplit]
        rfl
    | cons c name ih =>
        obtain ⟨hc, hname⟩ := List.forall_mem_cons.mp hname
        rw [List.cons_append, List.splitOnP_cons_eq_if_modifyHead, hc, ih hname]
        rfl
  rw [tokens, beforeComment_append (by decide), if_pos h.uncommented, hglued name h.visible]
  simp

/-- **A line with a label** has the statement that stands behind the first colon. -/
theorem parts_definition {lead name : Text} (hlead : IsGap lead) (h : IsName name) (rest : Text) :
    labelOf (lead ++ (name ++ ':' :: rest)) = some name ∧
      statementOf (lead ++ (name ++ ':' :: rest)) = tokens rest := by
  obtain ⟨word, more, hsplit, htokens⟩ := tokens_definition h rest
  have hbefore : ∀ c ∈ name, (c != ':') = true := by
    intro c hc
    rw [bne_iff_ne]
    rintro rfl
    exact h.colonless hc
  have hcolon : ':' ∈ name ++ ':' :: word := by simp
  rw [labelOf, statementOf, tokens_gap_append hlead, htokens]
  dsimp only
  rw [if_pos hcolon, if_pos hcolon, List.takeWhile_append_of_pos hbefore,
    List.dropWhile_append_of_pos hbefore, tokens, hsplit]
  cases word <;> simp

end IttyBitty.Assembly
