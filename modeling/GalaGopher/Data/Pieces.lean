import Mathlib.Data.List.Chain

namespace GalaGopher.Data

/-! Streams read in pieces of bounded length.

A mark closes a line.  A reader with room for `limit` items takes a line up to
and with its mark, or `limit` items of it when the mark is further away, so
that a long line reaches it in several pieces. -/

variable {α : Type} [DecidableEq α] {mark opener : α} {limit : Nat} {stream body text rest : List α}

/-- The next piece and what is left of the stream. -/
def takePiece (mark : α) : Nat → List α → List α × List α
  | 0, stream => ([], stream)
  | _ + 1, [] => ([], [])
  | room + 1, item :: rest =>
      if item = mark then ([item], rest)
      else
        let (text, left) := takePiece mark room rest
        (item :: text, left)

theorem takePiece_closed (free : mark ∉ body) (short : body.length < limit) :
    takePiece mark limit (body ++ mark :: rest) = (body ++ [mark], rest) := by
  induction body generalizing limit with
  | nil =>
      cases limit with
      | zero => simp at short
      | succ room => simp [takePiece]
  | cons item body ih =>
      cases limit with
      | zero => simp at short
      | succ room =>
          simp only [List.mem_cons, not_or] at free
          simp only [List.length_cons, Nat.add_lt_add_iff_right] at short
          rw [List.cons_append, takePiece, if_neg (Ne.symm free.1), ih free.2 short]
          rfl

theorem takePiece_full (free : mark ∉ text) (exact : text.length = limit) :
    takePiece mark limit (text ++ rest) = (text, rest) := by
  induction text generalizing limit with
  | nil =>
      subst limit
      simp [takePiece]
  | cons item text ih =>
      subst limit
      simp only [List.mem_cons, not_or] at free
      rw [List.length_cons, List.cons_append, takePiece, if_neg (Ne.symm free.1), ih free.2 rfl]

theorem takePiece_last (free : mark ∉ text) (short : text.length < limit) :
    takePiece mark limit text = (text, []) := by
  induction text generalizing limit with
  | nil =>
      cases limit with
      | zero => simp at short
      | succ room => rfl
  | cons item text ih =>
      cases limit with
      | zero => simp at short
      | succ room =>
          simp only [List.mem_cons, not_or] at free
          simp only [List.length_cons, Nat.add_lt_add_iff_right] at short
          rw [takePiece, if_neg (Ne.symm free.1), ih free.2 short]

/-- At most `calls` pieces, until the stream ends. -/
def piecesWithin (mark : α) (limit : Nat) : Nat → List α → List (List α)
  | 0, _ => []
  | calls + 1, stream =>
      if stream = [] then []
      else
        let (text, rest) := takePiece mark limit stream
        text :: piecesWithin mark limit calls rest

/-- A piece holds an item of the stream, so that as many calls as there are
items read all of it. -/
def pieces (mark : α) (limit : Nat) (stream : List α) : List (List α) :=
  piecesWithin mark limit stream.length stream

/-- How a stream falls into pieces. -/
inductive Cut (mark : α) (limit : Nat) : List α → List (List α) → Prop where
  | done : Cut mark limit [] []
  | last {text : List α} (free : mark ∉ text) (nonempty : text ≠ []) (short : text.length < limit) :
      Cut mark limit text [text]
  | closed {body rest : List α} {texts : List (List α)} (free : mark ∉ body) (short : body.length < limit)
      (tail : Cut mark limit rest texts) :
      Cut mark limit (body ++ mark :: rest) ((body ++ [mark]) :: texts)
  | full {text rest : List α} {texts : List (List α)} (free : mark ∉ text) (exact : text.length = limit)
      (tail : Cut mark limit rest texts) :
      Cut mark limit (text ++ rest) (text :: texts)

/-- The first `limit` items hold no mark and are all there is, or hold one, or
hold none and are a full piece. -/
theorem split_cases (mark : α) (limit : Nat) (stream : List α) :
    (mark ∉ stream ∧ stream.length < limit) ∨
      (∃ body rest, stream = body ++ mark :: rest ∧ mark ∉ body ∧ body.length < limit) ∨
      ∃ text rest, stream = text ++ rest ∧ mark ∉ text ∧ text.length = limit := by
  have whole := List.take_append_drop limit stream
  by_cases present : mark ∈ stream.take limit
  · obtain ⟨body, between, front, free⟩ := List.eq_append_cons_of_mem present
    have bounded := List.length_take_le limit stream
    rw [front, List.append_assoc, List.cons_append] at whole
    rw [front, List.length_append, List.length_cons] at bounded
    exact .inr (.inl ⟨body, between ++ stream.drop limit, whole.symm, free, by omega⟩)
  · rcases Nat.lt_or_ge stream.length limit with short | long
    · rw [List.take_of_length_le (Nat.le_of_lt short)] at present
      exact .inl ⟨present, short⟩
    · exact .inr (.inr ⟨_, _, whole.symm, present, List.length_take_of_le long⟩)

theorem cut_piecesWithin (positive : 0 < limit) {calls : Nat} (enough : stream.length ≤ calls) :
    Cut mark limit stream (piecesWithin mark limit calls stream) := by
  induction calls generalizing stream with
  | zero =>
      obtain rfl := List.length_eq_zero_iff.mp (Nat.le_zero.mp enough)
      exact .done
  | succ calls ih =>
      unfold piecesWithin
      split
      · subst stream
        exact .done
      · rename_i nonempty
        rcases split_cases mark limit stream with ⟨free, short⟩ | ⟨body, rest, rfl, free, short⟩ | ⟨text, rest, rfl, free, exact⟩
        · rw [takePiece_last free short]
          cases calls with
          | zero => exact .last free nonempty short
          | succ calls => exact .last free nonempty short
        · rw [takePiece_closed free short]
          simp only [List.length_append, List.length_cons] at enough
          exact .closed free short (ih (by omega))
        · rw [takePiece_full free exact]
          rw [List.length_append] at enough
          exact .full free exact (ih (by omega))

theorem cut_pieces (positive : 0 < limit) (stream : List α) :
    Cut mark limit stream (pieces mark limit stream) :=
  cut_piecesWithin positive (Nat.le_refl _)

theorem takePiece_rest_le (mark : α) (limit : Nat) (stream : List α) :
    (takePiece mark limit stream).2.length ≤ stream.length := by
  induction stream generalizing limit with
  | nil => cases limit <;> exact Nat.le_refl 0
  | cons item rest ih =>
      cases limit with
      | zero => exact Nat.le_refl _
      | succ room =>
          rw [takePiece]
          split
          case isTrue => exact Nat.le_succ _
          case isFalse => exact Nat.le_succ_of_le (ih room)

/-- More calls than there are items find nothing more. -/
theorem piecesWithin_eq (positive : 0 < limit) {calls : Nat} (enough : stream.length ≤ calls) :
    piecesWithin mark limit calls stream = pieces mark limit stream := by
  suffices same : ∀ fewer more : Nat, ∀ stream : List α, stream.length ≤ fewer → stream.length ≤ more →
      piecesWithin mark limit fewer stream = piecesWithin mark limit more stream from
    same _ _ stream enough (Nat.le_refl _)
  obtain ⟨room, rfl⟩ := Nat.exists_eq_succ_of_ne_zero (Nat.ne_of_gt positive)
  intro fewer
  induction fewer with
  | zero =>
      intro more stream empty _
      obtain rfl := List.length_eq_zero_iff.mp (Nat.le_zero.mp empty)
      cases more <;> rfl
  | succ fewer ih =>
      intro more stream within others
      cases stream with
      | nil => cases more <;> rfl
      | cons item rest =>
          cases more with
          | zero => exact absurd others (Nat.not_succ_le_zero _)
          | succ more =>
              have shorter : (takePiece mark (room + 1) (item :: rest)).2.length ≤ rest.length := by
                rw [takePiece]
                split
                case isTrue => exact Nat.le_refl _
                case isFalse => exact takePiece_rest_le mark room rest
              simp only [List.length_cons, Nat.add_le_add_iff_right] at within others
              simp only [piecesWithin, List.cons_ne_nil, if_false]
              rw [ih more _ (Nat.le_trans shorter within) (Nat.le_trans shorter others)]

theorem pieces_closed (free : mark ∉ body) (short : body.length < limit) (rest : List α) :
    pieces mark limit (body ++ mark :: rest) = (body ++ [mark]) :: pieces mark limit rest := by
  have filled : body ++ mark :: rest ≠ [] := List.append_ne_nil_of_right_ne_nil _ (List.cons_ne_nil _ _)
  have length : (body ++ mark :: rest).length = (body.length + rest.length) + 1 := by
    rw [List.length_append, List.length_cons, Nat.add_assoc]
  rw [pieces, length, piecesWithin, if_neg filled, takePiece_closed free short]
  simp only
  rw [piecesWithin_eq (Nat.lt_of_le_of_lt (Nat.zero_le _) short) (Nat.le_add_left _ _)]

theorem pieces_full (positive : 0 < limit) (free : mark ∉ text) (exact : text.length = limit) (rest : List α) :
    pieces mark limit (text ++ rest) = text :: pieces mark limit rest := by
  have filled : text ++ rest ≠ [] := by
    apply List.append_ne_nil_of_left_ne_nil
    exact List.ne_nil_of_length_pos (exact ▸ positive)
  obtain ⟨room, size⟩ := Nat.exists_eq_succ_of_ne_zero (Nat.ne_of_gt positive)
  have length : (text ++ rest).length = (room + rest.length) + 1 := by
    rw [List.length_append, exact, size]
    exact Nat.succ_add room rest.length
  rw [pieces, length, piecesWithin, if_neg filled, takePiece_full free exact]
  simp only
  rw [piecesWithin_eq positive (Nat.le_add_left _ _)]

theorem pieces_last (free : mark ∉ text) (filled : text ≠ []) (short : text.length < limit) :
    pieces mark limit text = [text] := by
  obtain ⟨room, size⟩ := Nat.exists_eq_succ_of_ne_zero (Nat.ne_of_gt (List.length_pos_iff.mpr filled))
  rw [pieces, size, piecesWithin, if_neg filled, takePiece_last free short]
  cases room <;> rfl

example : pieces 0 2 [7, 8, 9, 0, 0, 5] = [[7, 8], [9, 0], [0], [5]] := rfl

omit [DecidableEq α] in
theorem Cut.flatten {texts : List (List α)} (cut : Cut mark limit stream texts) : texts.flatten = stream := by
  induction cut with
  | done => rfl
  | last free nonempty short => simp
  | closed free short tail ih => simp [ih]
  | full free exact tail ih => simp [ih]

omit [DecidableEq α] in
theorem Cut.length_le {texts : List (List α)} (cut : Cut mark limit stream texts) :
    ∀ text ∈ texts, text.length ≤ limit := by
  induction cut with
  | done => simp
  | last free nonempty short => simp [Nat.le_of_lt short]
  | closed free short tail ih =>
      refine List.forall_mem_cons.mpr ⟨?_, ih⟩
      rw [List.length_append, List.length_singleton]
      exact short
  | full free exact tail ih => exact List.forall_mem_cons.mpr ⟨Nat.le_of_eq exact, ih⟩

/-- The lines of a stream that their mark closes, without it. -/
def completeLines (mark : α) (stream : List α) : List (List α) :=
  (stream.splitOn mark).dropLast

theorem completeLines_of_free (free : mark ∉ stream) : completeLines mark stream = [] := by
  rw [completeLines, List.splitOn_eq_singleton free]
  rfl

theorem completeLines_append (free : mark ∉ body) :
    completeLines mark (body ++ mark :: rest) = body :: completeLines mark rest := by
  have more : rest.splitOn mark ≠ [] := List.splitOn_ne_nil mark rest
  rw [completeLines, List.splitOn_append_cons_self_of_not_mem free, List.dropLast_cons_of_ne_nil more]
  rfl

theorem exists_line_of_front (free : mark ∉ text) :
    ∃ line ∈ (text ++ rest).splitOn mark, text.length ≤ line.length := by
  by_cases present : mark ∈ rest
  · obtain ⟨front, later, rfl, fresh⟩ := List.eq_append_cons_of_mem present
    have whole : mark ∉ text ++ front := by simp [free, fresh]
    rw [← List.append_assoc, List.splitOn_append_cons_self_of_not_mem whole]
    exact ⟨_, List.mem_cons_self, by simp⟩
  · have whole : mark ∉ text ++ rest := by simp [free, present]
    rw [List.splitOn_eq_singleton whole]
    exact ⟨_, List.mem_cons_self, by simp⟩

/-- Where every line fits a piece with its mark, only the last piece is open. -/
theorem Cut.closed_of_short {texts : List (List α)} (cut : Cut mark limit stream texts)
    (short : ∀ line ∈ stream.splitOn mark, line.length < limit) : texts.Pairwise fun earlier _ => mark ∈ earlier := by
  induction cut with
  | done => exact .nil
  | last free nonempty fits => exact List.pairwise_singleton _ _
  | closed free fits tail ih =>
      rw [List.splitOn_append_cons_self_of_not_mem free] at short
      exact .cons (by simp) (ih (List.forall_mem_cons.mp short).2)
  | full free exact tail ih =>
      obtain ⟨line, member, long⟩ := exists_line_of_front free
      have fits := short line member
      omega

-- A reader that looks at each piece alone, keeps those that begin with the
-- opener and takes every closed one for a line.

def openedLines (mark opener : α) (stream : List α) : List (List α) :=
  (completeLines mark stream).filter fun line => line.head? = some opener

def taken (mark opener : α) (texts : List (List α)) : List (List α) :=
  (texts.filter fun text => text.head? = some opener ∧ mark ∈ text).map List.dropLast

/-- No piece that closes a line and begins with the opener continues one. -/
def Headed (mark opener : α) (texts : List (List α)) : Prop :=
  texts.IsChain fun earlier later => later.head? = some opener → mark ∈ later → mark ∈ earlier

instance (mark opener : α) (texts : List (List α)) : Decidable (Headed mark opener texts) :=
  inferInstanceAs (Decidable (List.IsChain _ _))

omit [DecidableEq α] in
theorem headed_cons {texts : List (List α)} :
    Headed mark opener (text :: texts) ↔
      (∀ next ∈ texts.head?, next.head? = some opener → mark ∈ next → mark ∈ text) ∧ Headed mark opener texts :=
  List.isChain_cons

theorem taken_open {texts : List (List α)} (free : mark ∉ text) :
    taken mark opener (text :: texts) = taken mark opener texts := by
  rw [taken, List.filter_cons_of_neg (by simp [free]), taken]

omit [DecidableEq α] in
theorem head?_closed (different : opener ≠ mark) :
    (body ++ [mark]).head? = some opener ↔ body.head? = some opener := by
  cases body with
  | nil => simp [Ne.symm different]
  | cons item rest => rfl

theorem taken_closed {texts : List (List α)} (different : opener ≠ mark) :
    taken mark opener ((body ++ [mark]) :: texts) =
      if body.head? = some opener then body :: taken mark opener texts else taken mark opener texts := by
  have opens : (body ++ [mark]).head? = some opener ↔ body.head? = some opener := head?_closed different
  split
  · rename_i opened
    rw [taken, List.filter_cons_of_pos (by simp only [opens, opened]; simp), List.map_cons, List.dropLast_concat, taken]
  · rename_i other
    rw [taken, List.filter_cons_of_neg (by simp only [opens, other]; simp), taken]

/-- What the reader takes beyond the opened lines that fit one piece are
closing pieces of longer lines. -/
theorem Cut.taken_of_short {texts : List (List α)} {previous before : List α} (cut : Cut mark limit stream texts)
    (different : opener ≠ mark)
    (within : mark ∈ previous ∧ before = [] ∨ mark ∉ previous ∧ mark ∉ before ∧ limit ≤ before.length) :
    ((openedLines mark opener (before ++ stream)).filter (·.length < limit)).length ≤ (taken mark opener texts).length ∧
      (Headed mark opener (previous :: texts) ↔
        (openedLines mark opener (before ++ stream)).filter (·.length < limit) = taken mark opener texts) := by
  have beforeFree : mark ∉ before := by
    rcases within with ⟨-, rfl⟩ | ⟨-, free, -⟩
    · simp
    · exact free
  induction cut generalizing previous before with
  | done =>
      rw [List.append_nil, openedLines, completeLines_of_free beforeFree]
      simp [taken, Headed]
  | @last text free nonempty short =>
      have whole : mark ∉ before ++ text := by simp [beforeFree, free]
      rw [openedLines, completeLines_of_free whole]
      simp [taken, free, Headed]
  | @closed body rest texts free short tail ih =>
      have fresh : mark ∉ before ++ body := by simp [beforeFree, free]
      obtain ⟨fewer, exact⟩ := @ih (body ++ [mark]) [] (.inl ⟨by simp, rfl⟩) (by simp)
      rw [List.nil_append] at fewer exact
      rw [← List.append_assoc, openedLines, completeLines_append fresh, List.filter_cons, ← openedLines,
        headed_cons, exact, taken_closed different]
      simp only [List.head?_cons, Option.mem_some_iff, forall_eq', head?_closed different]
      rcases within with ⟨ended, rfl⟩ | ⟨running, -, long⟩
      · by_cases opens : body.head? = some opener
        · simpa [opens, short, ended] using fewer
        · simpa [opens, ended] using fewer
      · have beyond : ¬ (before ++ body).length < limit := by
          rw [List.length_append]
          omega
        have left : ∀ lines : List (List α), (if decide ((before ++ body).head? = some opener) = true then
            (before ++ body) :: lines else lines).filter (·.length < limit) = lines.filter (·.length < limit) := by
          intro lines
          split
          · exact List.filter_cons_of_neg (by simpa using beyond)
          · rfl
        rw [left]
        by_cases opens : body.head? = some opener
        · simp only [opens, if_true, List.length_cons]
          refine ⟨by omega, ?_⟩
          constructor
          · intro headed
            exact absurd (headed.1 trivial (by simp)) running
          · intro same
            rw [same, List.length_cons] at fewer
            omega
        · simpa [opens] using fewer
  | @full text rest texts free exact tail ih =>
      have fresh : mark ∉ before ++ text := by simp [beforeFree, free]
      have long : limit ≤ (before ++ text).length := by
        rw [List.length_append]
        omega
      have later := @ih text (before ++ text) (.inr ⟨free, fresh, long⟩) fresh
      rw [List.append_assoc] at later
      rw [headed_cons, taken_open free]
      simpa [free] using later

theorem Cut.taken_length {texts : List (List α)} (cut : Cut mark limit stream texts) (different : opener ≠ mark) :
    ∀ line ∈ taken mark opener texts, line.length < limit := by
  induction cut with
  | done => simp [taken]
  | last free nonempty short => simp [taken, free]
  | closed free short tail ih =>
      rw [taken_closed different]
      split
      · exact List.forall_mem_cons.mpr ⟨short, ih⟩
      · exact ih
  | full free exact tail ih =>
      rw [taken_open free]
      exact ih

/-- The reader takes opened lines only, each at most once and in order,
exactly when no closing piece that begins with the opener continues a line. -/
theorem Cut.taken_sublist_iff {texts : List (List α)} (cut : Cut mark limit stream texts) (different : opener ≠ mark) :
    (taken mark opener texts).Sublist (openedLines mark opener stream) ↔ Headed mark opener texts := by
  obtain ⟨fewer, exact⟩ := @cut.taken_of_short _ _ _ _ _ _ _ [mark] [] different (.inl ⟨by simp, rfl⟩)
  have first : Headed mark opener ([mark] :: texts) ↔ Headed mark opener texts := by
    rw [headed_cons]
    simp
  rw [List.nil_append] at fewer exact
  rw [← first, exact]
  constructor
  · intro sublist
    have fits : (taken mark opener texts).filter (·.length < limit) = taken mark opener texts :=
      List.filter_eq_self.mpr fun line member => decide_eq_true (cut.taken_length different line member)
    have restricted := sublist.filter (·.length < limit)
    rw [fits] at restricted
    exact (restricted.eq_of_length_le fewer).symm
  · intro same
    rw [← same]
    exact List.filter_sublist

theorem suffix_of_splitOn (front : List α) {whole : List α} (member : whole ∈ rest.splitOn mark) :
    ∃ longer ∈ (front ++ rest).splitOn mark, whole <:+ longer := by
  induction front with
  | nil => exact ⟨whole, member, List.suffix_refl whole⟩
  | cons item front ih =>
      obtain ⟨longer, present, suffix⟩ := ih
      rw [List.cons_append, List.splitOn_cons_eq_if_modifyHead]
      split
      · exact ⟨longer, List.mem_cons_of_mem _ present, suffix⟩
      · obtain ⟨head, others, split⟩ := List.exists_cons_of_ne_nil (List.splitOn_ne_nil mark (front ++ rest))
        rw [split] at present ⊢
        rcases List.mem_cons.mp present with same | later
        · exact ⟨item :: head, List.mem_cons_self, (same ▸ suffix).trans (List.suffix_cons item head)⟩
        · exact ⟨longer, List.mem_cons_of_mem _ later, suffix⟩

/-- Whatever is taken is the end of a line and begins with the opener. -/
theorem Cut.taken_suffix {texts : List (List α)} (cut : Cut mark limit stream texts) (different : opener ≠ mark) :
    ∀ line ∈ taken mark opener texts, line.head? = some opener ∧ ∃ whole ∈ stream.splitOn mark, line <:+ whole := by
  induction cut with
  | done => simp [taken]
  | last free nonempty short => simp [taken, free]
  | @closed body rest texts free short tail ih =>
      intro line member
      rw [List.splitOn_append_cons_self_of_not_mem free]
      rw [taken_closed different] at member
      split at member
      · rename_i opened
        rcases List.mem_cons.mp member with rfl | later
        · exact ⟨opened, line, List.mem_cons_self, List.suffix_refl line⟩
        · obtain ⟨opens, whole, present, suffix⟩ := ih line later
          exact ⟨opens, whole, List.mem_cons_of_mem _ present, suffix⟩
      · obtain ⟨opens, whole, present, suffix⟩ := ih line member
        exact ⟨opens, whole, List.mem_cons_of_mem _ present, suffix⟩
  | @full text rest texts free exact tail ih =>
      intro line member
      rw [taken_open free] at member
      obtain ⟨opens, whole, present, suffix⟩ := ih line member
      obtain ⟨longer, here, longerSuffix⟩ := suffix_of_splitOn text present
      exact ⟨opens, longer, here, suffix.trans longerSuffix⟩

end GalaGopher.Data
