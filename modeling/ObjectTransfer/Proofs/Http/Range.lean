import ObjectTransfer.Http.ByteRange
import ObjectTransfer.Http.Range
import ObjectTransfer.Proofs.Text
/-!
What the range headers say can be read back from their texts, for offsets below the limit.
-/
namespace ObjectTransfer.Http
open Text

theorem parseOffset_toString {n : Nat} (header : OffsetHeader) (h : n < Unsigned.limit) :
    parseOffset header (toString n).toList = .ok n := by
  rw [parseOffset, strip_toString, Unsigned.parse_toString h]

theorem eq_of_parseOffset_toString {header : OffsetHeader} {n m : Nat}
    (h : parseOffset header (toString n).toList = .ok m) : m = n := by
  rw [parseOffset, strip_toString] at h
  split at h
  · rename_i hp
    cases h
    exact Unsigned.eq_of_parse_toString hp
  · cases h

theorem ByteRange.parse_header {start stop : Nat} (h : start ≤ stop) (hl : stop < Unsigned.limit) :
    ByteRange.parse (ByteRange.inclusive start stop).header = .ok (.inclusive start stop) := by
  have hlist : (ByteRange.inclusive start stop).header.toList = "bytes=".toList ++
      ((toString start).toList ++ '-' :: (toString stop).toList) := by
    simp [header, text]
  have hs : strip (ByteRange.inclusive start stop).header.toList =
      (ByteRange.inclusive start stop).header.toList := by
    have ha : (ByteRange.inclusive start stop).header.toList = "bytes=".toList ++
        (toString start).toList ++ ['-'] ++ (toString stop).toList := by
      simp [hlist]
    rw [ha]
    exact strip_eq_self (by simp; decide) (isBlank_last_toString _ stop)
  have hcomma : ((toString start).toList ++ '-' :: (toString stop).toList).contains ',' = false := by
    rw [List.contains_eq_mem, decide_eq_false_iff_not]
    simp only [List.mem_append, List.mem_cons, not_or]
    exact ⟨not_mem_toString (by decide) start, by decide, not_mem_toString (by decide) stop⟩
  rw [parse, hs, hlist, after?_append]
  simp only [hcomma, Bool.false_eq_true, if_false, strip_toString,
    splitOnce_append (not_mem_toString (by decide : '-'.isDigit = false) start)]
  split
  · rename_i he _
    exact absurd he (toString_ne_nil start)
  · rename_i he _
    exact absurd he (toString_ne_nil start)
  · rename_i he _
    exact absurd he (toString_ne_nil stop)
  · simp only [bind, Except.bind, parseOffset_toString .range (Nat.lt_of_le_of_lt h hl),
      parseOffset_toString .range hl, if_neg (Nat.not_lt.2 h)]

namespace ContentRange

theorem parse_text_unsatisfied {total : Nat} (h : total < Unsigned.limit) :
    parse (unsatisfied total).text = .ok (.unsatisfied total) := by
  have hl : (unsatisfied total).text.toList =
      "bytes ".toList ++ (['*'] ++ '/' :: (toString total).toList) := by
    simp [text]
  have hs : strip (unsatisfied total).text.toList = (unsatisfied total).text.toList := by
    have ha : (unsatisfied total).text.toList = "bytes */".toList ++ (toString total).toList := by
      simp [text]
    rw [ha]
    exact strip_eq_self (by simp; decide) (isBlank_last_toString _ total)
  rw [parse, hs, hl, after?_append]
  simp only [splitOnce_append (show '/' ∉ ['*'] by decide), parseOffset_toString .contentRange h]
  rfl

theorem strip_offsets (start stop : Nat) :
    strip ((toString start).toList ++ '-' :: (toString stop).toList) =
      (toString start).toList ++ '-' :: (toString stop).toList := by
  apply strip_eq_self_of_all
  intro c hc
  simp only [List.mem_append, List.mem_cons] at hc
  rcases hc with hc | rfl | hc
  · exact isBlank_of_isDigit (isDigit_of_mem_toString hc)
  · decide
  · exact isBlank_of_isDigit (isDigit_of_mem_toString hc)

theorem parse_text_bytes_eq (start stop total : Nat) :
    parse (bytes start stop total).text = (do
      let size ← parseOffset .contentRange (toString total).toList
      let first ← parseOffset .contentRange (toString start).toList
      let last ← parseOffset .contentRange (toString stop).toList
      .ok (.bytes first last size)) := by
  have hl : (bytes start stop total).text.toList = "bytes ".toList ++
      (((toString start).toList ++ '-' :: (toString stop).toList) ++
        '/' :: (toString total).toList) := by
    simp [text]
  have hs : strip (bytes start stop total).text.toList = (bytes start stop total).text.toList := by
    have ha : (bytes start stop total).text.toList = "bytes ".toList ++
        ((toString start).toList ++ '-' :: (toString stop).toList) ++ ['/'] ++
          (toString total).toList := by
      simp [text]
    rw [ha]
    exact strip_eq_self (by simp; decide) (isBlank_last_toString _ total)
  have hslash : '/' ∉ (toString start).toList ++ '-' :: (toString stop).toList := by
    simp only [List.mem_append, List.mem_cons, not_or]
    exact ⟨not_mem_toString (by decide) start, by decide, not_mem_toString (by decide) stop⟩
  have hstar : (toString start).toList ++ '-' :: (toString stop).toList ≠ ['*'] := by
    intro h
    have hm : '-' ∈ ['*'] := by rw [← h]; simp
    exact absurd hm (by decide)
  rw [parse, hs, hl, after?_append]
  simp only [splitOnce_append hslash, strip_offsets, hstar, if_false,
    splitOnce_append (not_mem_toString (by decide : '-'.isDigit = false) start)]

theorem parse_text_bytes {start stop total : Nat} (h1 : start < Unsigned.limit)
    (h2 : stop < Unsigned.limit) (h3 : total < Unsigned.limit) :
    parse (bytes start stop total).text = .ok (.bytes start stop total) := by
  rw [parse_text_bytes_eq, parseOffset_toString .contentRange h1,
    parseOffset_toString .contentRange h2, parseOffset_toString .contentRange h3]
  rfl

theorem eq_of_parse_text_bytes {start stop total : Nat} {r : ContentRange}
    (h : parse (bytes start stop total).text = .ok r) : r = .bytes start stop total := by
  rw [parse_text_bytes_eq] at h
  simp only [bind, Except.bind] at h
  split at h
  · cases h
  rename_i size hsize
  split at h
  · cases h
  rename_i first hfirst
  split at h
  · cases h
  rename_i last hlast
  cases h
  rw [eq_of_parseOffset_toString hsize, eq_of_parseOffset_toString hfirst,
    eq_of_parseOffset_toString hlast]

end ContentRange

end ObjectTransfer.Http
