import JNet.Net.HttpMsg

/-! # The arguments of a request

    `DecodeArgs` moves five cursors over the query.  What it is for can be said
    without any of them: the query is split at every `&`, and every piece at its
    first `=`.
-/

namespace JNet

open Strings

namespace HttpRequest

/-! ## What the arguments are -/

/-- The part before the first `?`. -/
def path (u : Bytes) : Bytes := u.takeWhile (· != 63)

/-- The part behind it, empty if there is none. -/
def query (u : Bytes) : Bytes := u.drop ((path u).length + 1)

/-- A piece of the query sets an argument if it has a name. -/
def setArg (args : HttpMap) (piece : Bytes) : HttpMap :=
  let key := piece.takeWhile (· != 61)
  let value := piece.drop (key.length + 1)
  if key = [] then args else args.set key value

/-- The pieces in order, later ones over earlier ones. -/
def setArgs (args : HttpMap) (qs : Bytes) : HttpMap := (qs.splitOn 38).foldl setArg args

/-! ## The inner loop -/

/-- A string up to a byte, and the rest from that byte on. -/
theorem takeWhile_ne (s : Bytes) (b : UInt8) :
    b ∉ s.takeWhile (· != b) ∧
      (s = s.takeWhile (· != b) ∨ ∃ t, s = s.takeWhile (· != b) ++ b :: t) := by
  induction s with
  | nil => exact ⟨by simp, .inl rfl⟩
  | cons a s ih =>
    by_cases hab : a = b
    · subst hab
      simp
    · have htake : (a :: s).takeWhile (· != b) = a :: s.takeWhile (· != b) := by
        simp [hab]
      rw [htake]
      refine ⟨by simp [Ne.symm hab, ih.1], ?_⟩
      rcases ih.2 with hall | ⟨t, ht⟩
      · exact .inl (congrArg (a :: ·) hall)
      · exact .inr ⟨t, congrArg (a :: ·) ht⟩

section round

variable {qs piece rest : Bytes} {args : HttpMap} {c : Nat}

/-- What stands behind a piece: nothing, or an `&`. -/
def Ends (rest : Bytes) : Prop := rest = [] ∨ ∃ t, rest = 38 :: t

/-- The cursors over a piece: where its name ends, and where its value begins and
    ends. -/
theorem cursors_piece (hdrop : qs.drop c = piece ++ rest) (hpiece : 38 ∉ piece)
    (hrest : Ends rest) :
    ∃ ke vb ve, advanceWhile qs (fun b => b != 61 && b != 38) c = ke ∧
      advanceOver qs 61 ke = vb ∧ advanceWhile qs (fun b => b != 38) vb = ve ∧
      slice qs c ke = piece.takeWhile (· != 61) ∧ ke = c + (piece.takeWhile (· != 61)).length ∧
      slice qs vb ve = piece.drop ((piece.takeWhile (· != 61)).length + 1) ∧
      ve = c + piece.length := by
  have hstop : ∀ b, rest.head? = some b → (b != 38) = false := by
    intro b hb
    rcases hrest with rfl | ⟨t, rfl⟩
    · cases hb
    · cases hb
      rfl
  obtain ⟨hfree, hsplit⟩ := takeWhile_ne piece 61
  generalize piece.takeWhile (· != 61) = key at hfree hsplit
  have hkey : ∀ b ∈ key, (b != 61 && b != 38) = true := by
    intro b hb
    have hmem : b ∈ piece := by
      rcases hsplit with rfl | ⟨t, rfl⟩
      · exact hb
      · simp [hb]
    simp only [Bool.and_eq_true, bne_iff_ne]
    exact ⟨fun h => hfree (h ▸ hb), fun h => hpiece (h ▸ hmem)⟩
  rcases hsplit with rfl | ⟨value, rfl⟩
  · -- No `=`: the value is empty.
    have hke : advanceWhile qs (fun b => b != 61 && b != 38) c = c + piece.length := by
      apply advanceWhile_of_drop hdrop hkey
      intro b hb
      rw [hstop b hb, Bool.and_false]
    have hend : qs.drop (c + piece.length) = rest := drop_add_of_drop hdrop
    have hvb : advanceOver qs 61 (c + piece.length) = c + piece.length := by
      apply advanceOver_stays hend
      rcases hrest with rfl | ⟨t, rfl⟩ <;> simp
    have hve : advanceWhile qs (fun b => b != 38) (c + piece.length) = c + piece.length :=
      advanceWhile_of_drop (t := []) hend (by simp) hstop
    refine ⟨_, _, _, hke, hvb, hve, slice_of_drop hdrop, rfl, ?_, rfl⟩
    rw [slice, Nat.sub_self, List.take_zero, List.drop_eq_nil_of_le (by omega)]
  · rw [List.append_assoc, List.cons_append] at hdrop
    have hke : advanceWhile qs (fun b => b != 61 && b != 38) c = c + key.length := by
      apply advanceWhile_of_drop hdrop hkey
      rintro b ⟨⟩
      rfl
    have hmid : qs.drop (c + key.length) = 61 :: (value ++ rest) := drop_add_of_drop hdrop
    have hvb : advanceOver qs 61 (c + key.length) = c + key.length + 1 :=
      advanceOver_of_drop hmid
    have hvalue : qs.drop (c + key.length + 1) = value ++ rest :=
      drop_add_of_drop (t := [61]) hmid
    have hve : advanceWhile qs (fun b => b != 38) (c + key.length + 1) =
        c + key.length + 1 + value.length := by
      apply advanceWhile_of_drop hvalue _ hstop
      intro b hb
      rw [bne_iff_ne]
      exact fun h => hpiece (by simp [← h, hb])
    refine ⟨_, _, _, hke, hvb, hve, slice_of_drop hdrop, rfl, ?_, ?_⟩
    · rw [slice_of_drop hvalue, ← List.drop_drop, List.drop_left]
      rfl
    · simp only [List.length_append, List.length_cons]
      omega

/-- One round of the loop sets the argument of one piece. -/
theorem decodeQuery_round (hc : c < qs.length) (hdrop : qs.drop c = piece ++ rest)
    (hpiece : 38 ∉ piece) (hrest : Ends rest) :
    decodeQuery qs args c c = decodeQuery qs (setArg args piece)
      (advanceOver qs 38 (c + piece.length)) (advanceOver qs 38 (c + piece.length)) := by
  obtain ⟨ke, vb, ve, hke, hvb, hve, hkey, hlen, hvalue, hend⟩ :=
    cursors_piece hdrop hpiece hrest
  subst hend
  rw [decodeQuery, if_pos hc]
  simp only [hke, hvb, hve, hkey, hvalue]
  congr 1
  unfold setArg
  by_cases hempty : piece.takeWhile (· != 61) = []
  · rw [if_neg (by rw [hlen, hempty]; simp), if_pos hempty]
  · have hpos := List.length_pos_iff.mpr hempty
    rw [if_pos (by omega), if_neg hempty]

end round

/-- The loop from any piece on. -/
theorem decodeQuery_eq (qs : Bytes) (args : HttpMap) (c : Nat) :
    decodeQuery qs args c c = setArgs args (qs.drop c) := by
  induction hn : qs.length - c using Nat.strongRecOn generalizing c args with
  | ind n ih =>
    by_cases hc : c < qs.length
    · obtain ⟨hpiece, hsplit⟩ := takeWhile_ne (qs.drop c) 38
      generalize (qs.drop c).takeWhile (· != 38) = piece at hpiece hsplit
      rcases hsplit with hall | ⟨t, ht⟩
      · -- The last piece: the cursor is at the end.
        have hlen : c + piece.length = qs.length := by
          rw [← hall, List.length_drop]
          omega
        have hend : advanceOver qs 38 (c + piece.length) = qs.length := by
          rw [hlen, advanceOver, if_neg (by omega)]
        rw [decodeQuery_round hc (by rw [List.append_nil]; exact hall) hpiece (.inl rfl), hend,
          ih 0 (by omega) _ _ (by omega), List.drop_length, setArgs, setArgs, hall,
          List.splitOn_eq_singleton hpiece]
        rfl
      · have hsep : qs.drop (c + piece.length) = 38 :: t := drop_add_of_drop ht
        have hnext : qs.drop (c + piece.length + 1) = t := drop_add_of_drop (t := [38]) hsep
        rw [decodeQuery_round hc ht hpiece (.inr ⟨t, rfl⟩), advanceOver_of_drop hsep,
          ih (qs.length - (c + piece.length + 1)) (by omega) _ _ rfl, hnext, setArgs, setArgs, ht,
          List.splitOn_append_cons_self, List.splitOn_eq_singleton hpiece]
        rfl
    · rw [decodeQuery, if_neg hc, List.drop_eq_nil_of_le (by omega)]
      rfl

/-! ## The outer loop -/

/-- The loop from a place on before which there is no `?`. -/
theorem decodeUri_eq (u uri : Bytes) (args : HttpMap) (i : Nat) (hi : i ≤ u.length)
    (hfree : 63 ∉ u.take i) :
    decodeUri u uri args i = (path u, setArgs args (query u)) := by
  induction hn : u.length - i using Nat.strongRecOn generalizing i uri with
  | ind n ih =>
    rw [decodeUri, if_pos hi]
    dsimp only
    rw [List.getD_eq_getElem?_getD]
    by_cases hmark : u[i]?.getD 0 = 63
    · have hlt : i < u.length := by
        by_contra hge
        rw [List.getElem?_eq_none (by omega)] at hmark
        exact absurd hmark (by decide)
      have hsplit : u = u.take i ++ 63 :: u.drop (i + 1) := by
        rw [List.getElem?_eq_getElem hlt, Option.getD_some] at hmark
        rw [← hmark, ← List.drop_eq_getElem_cons hlt, List.take_append_drop]
      have hpath : path u = u.take i := by
        unfold path
        conv_lhs => rw [hsplit]
        rw [List.takeWhile_append_of_pos]
        · simp
        · intro b hb
          rw [bne_iff_ne]
          exact fun h => hfree (h ▸ hb)
      have hquery : query u = u.drop (i + 1) := by
        rw [query, hpath, List.length_take, Nat.min_eq_left hi]
      have hall : (u.drop (i + 1)).take (u.length - i - 1) = u.drop (i + 1) := by
        apply List.take_of_length_le
        rw [List.length_drop]
        omega
      rw [if_pos hmark, decodeQuery_eq, List.drop_zero, hpath, hquery, hall]
    · rw [if_neg hmark]
      by_cases hlt : i < u.length
      · have hnext : 63 ∉ u.take (i + 1) := by
          rw [List.take_succ_eq_append_getElem hlt, List.mem_append, List.mem_singleton, not_or]
          refine ⟨hfree, ?_⟩
          rw [List.getElem?_eq_getElem hlt, Option.getD_some] at hmark
          exact fun h => hmark h.symm
        exact ih (u.length - (i + 1)) (by omega) _ _ hlt hnext rfl
      · -- Nothing found: the loop ends behind the last byte.
        obtain rfl : i = u.length := by omega
        rw [List.take_length] at hfree
        have hpath : path u = u := by
          rcases (takeWhile_ne u 63).2 with hall | ⟨t, ht⟩
          · exact hall.symm
          · exact absurd (by rw [ht]; simp) hfree
        have hquery : query u = [] := by
          rw [query, hpath]
          exact List.drop_eq_nil_of_le (by omega)
        rw [decodeUri, if_neg (by omega), if_pos rfl, hpath, hquery]
        rfl

/-- **Query arguments**: `DecodeArgs` sets the uri to the path and, for each piece
    of the query in order, the argument it names; nothing else changes. -/
theorem decodeArgs_eq (r : HttpRequest) :
    r.decodeArgs =
      { r with uri_ := path r.query_uri_, args_ := setArgs r.args_ (query r.query_uri_) } := by
  unfold decodeArgs
  rw [decodeUri_eq r.query_uri_ r.uri_ r.args_ 0 (Nat.zero_le _) (by simp)]

example : (setArgs [] (query (ascii "/a?x=1&=2&y&x=3=4&"))) =
    [(ascii "x", ascii "3=4"), (ascii "y", [])] := by decide

end HttpRequest

end JNet
