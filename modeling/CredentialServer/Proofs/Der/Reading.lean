import CredentialServer.Der.Element

/-! # What a reader keeps of an encoding

An element keeps the octets that it was read from, and a reader never looks behind them.  So they
can be read again by themselves, with the same outcome (`read?_raw`).  Nor does it matter to
what was read how strict the reader was about lengths (`read?_any`). -/

namespace CredentialServer
namespace Der

variable {lengths : Lengths} {tag : UInt8} {b body rest content header : Bytes} {n : Nat}
variable {e : Element}

/-! ### Lengths -/

/-- Octets that write a length, for a reader. -/
inductive IsLength (lengths : Lengths) : Bytes → Nat → Prop where
  | short {x : UInt8} (h : x.toNat < 128) : IsLength lengths [x] x.toNat
  | long {x : UInt8} {digits : Bytes} (hx : x.toNat = 128 + digits.length) (hlt : x.toNat < 255)
      (hne : digits ≠ []) (hsize : Bytes.toNat digits < UInt64.size)
      (hshortest : lengths = .shortest → 128 ≤ Bytes.toNat digits ∧ digits.head? ≠ some 0) :
      IsLength lengths (x :: digits) (Bytes.toNat digits)

theorem IsLength.any (h : IsLength lengths header n) : IsLength .any header n := by
  cases h with
  | short h => exact .short h
  | long hx hlt hne hsize _ => exact .long hx hlt hne hsize (fun h => by cases h)

theorem readLength?_append (h : IsLength lengths header n) (body : Bytes) :
    readLength? lengths (header ++ body) = some (n, body) := by
  cases h with
  | short h => simp [readLength?, h]
  | @long x digits hx hlt hne hsize hshortest =>
      have hpos : 0 < digits.length := List.length_pos_iff.mpr hne
      have hwidth : x.toNat - 128 = digits.length := by omega
      unfold readLength?
      simp only [List.cons_append]
      rw [if_neg (by omega), if_neg (by simp only [List.length_append]; omega), hwidth,
        List.take_left, List.drop_left, if_neg (by omega), if_neg]
      rintro ⟨hl, hv⟩
      obtain ⟨hge, hhead⟩ := hshortest hl
      rcases hv with hv | hv
      · omega
      · exact hhead hv

theorem exists_header_of_readLength? (h : readLength? lengths b = some (n, body)) :
    ∃ header, b = header ++ body ∧ IsLength lengths header n := by
  cases b with
  | nil => cases h
  | cons x b =>
      unfold readLength? at h
      simp only at h
      split at h
      · next hshort =>
        simp only [Option.some.injEq, Prod.mk.injEq] at h
        obtain ⟨rfl, rfl⟩ := h
        exact ⟨[x], rfl, .short hshort⟩
      · next hlong =>
        split at h
        · cases h
        · next hwidth =>
          split at h
          · cases h
          · next hsize =>
            split at h
            · cases h
            · next hform =>
              simp only [Option.some.injEq, Prod.mk.injEq] at h
              obtain ⟨rfl, rfl⟩ := h
              have hlength : (b.take (x.toNat - 128)).length = x.toNat - 128 := by
                rw [List.length_take]
                omega
              have hlt := x.toNat_lt
              refine ⟨x :: b.take (x.toNat - 128), by simp, .long ?_ ?_ ?_ ?_ ?_⟩
              · omega
              · omega
              · intro hnil
                rw [hnil, List.length_nil] at hlength
                omega
              · omega
              · intro hl
                constructor
                · exact Nat.not_lt.mp (fun hv => hform ⟨hl, .inl hv⟩)
                · intro hv
                  exact hform ⟨hl, .inr hv⟩

/-! ### Values -/

theorem raw_length (tag : UInt8) (header body : Bytes) (n : Nat) :
    1 + ((header ++ body).length - body.length) + n = (tag :: header).length + n := by
  simp only [List.length_append, List.length_cons]
  omega

/-- A value is its tag, a length and as many octets. -/
theorem read?_eq_some_iff : read? lengths b = some (e, rest) ↔
    b = e.raw ++ rest ∧ e.tag &&& 0x1f ≠ 0x1f ∧
      ∃ header, e.raw = e.tag :: header ++ e.content ∧
        IsLength lengths header e.content.length := by
  constructor
  · intro h
    cases b with
    | nil => cases h
    | cons tag b =>
        rw [read?] at h
        split at h
        · cases h
        · next htag =>
          cases hlength : readLength? lengths b with
          | none =>
              rw [hlength] at h
              cases h
          | some result =>
              obtain ⟨n, body⟩ := result
              obtain ⟨header, rfl, hheader⟩ := exists_header_of_readLength? hlength
              rw [hlength] at h
              simp only at h
              split at h
              · cases h
              · next hbody =>
                have hn : (body.take n).length = n := List.length_take_of_le (Nat.not_lt.mp hbody)
                have hraw : (tag :: (header ++ body)).take
                    (1 + ((header ++ body).length - body.length) + n) =
                    tag :: header ++ body.take n := by
                  rw [raw_length tag, ← List.cons_append, List.take_length_add_append]
                simp only [hraw, Option.some.injEq, Prod.mk.injEq] at h
                obtain ⟨rfl, rfl⟩ := h
                refine ⟨by simp, htag, header, rfl, ?_⟩
                rw [hn]
                exact hheader
  · rintro ⟨rfl, htag, header, hraw, hlength⟩
    have htake : (e.tag :: (header ++ (e.content ++ rest))).take
        (1 + ((header ++ (e.content ++ rest)).length - (e.content ++ rest).length) +
          e.content.length) = e.raw := by
      rw [raw_length e.tag, ← List.cons_append, List.take_length_add_append, List.take_left, hraw]
    rw [show e.raw ++ rest = e.tag :: (header ++ (e.content ++ rest)) by simp [hraw]]
    rw [read?, if_neg htag, readLength?_append hlength]
    simp only
    rw [if_neg (by simp), htake, List.take_left, List.drop_left]

theorem read?_raw (h : read? lengths b = some (e, rest)) : read? lengths e.raw = some (e, []) := by
  obtain ⟨-, htag, hraw⟩ := read?_eq_some_iff.mp h
  exact read?_eq_some_iff.mpr ⟨(List.append_nil _).symm, htag, hraw⟩

/-- A reader that takes any length reads what a strict one does. -/
theorem read?_any (h : read? lengths b = some (e, rest)) : read? .any b = some (e, rest) := by
  obtain ⟨hb, htag, header, hraw, hlength⟩ := read?_eq_some_iff.mp h
  exact read?_eq_some_iff.mpr ⟨hb, htag, header, hraw, hlength.any⟩

theorem readTag?_eq_some_iff : readTag? lengths tag b = some (content, rest) ↔
    ∃ e, read? lengths b = some (e, rest) ∧ e.tag = tag ∧ e.content = content := by
  unfold readTag?
  cases read? lengths b with
  | none => simp
  | some result =>
      obtain ⟨e, r⟩ := result
      simp only [Option.some.injEq, Prod.mk.injEq]
      constructor
      · intro h
        split at h
        · next htag =>
          cases h
          exact ⟨e, ⟨rfl, rfl⟩, htag, rfl⟩
        · cases h
      · rintro ⟨e', ⟨rfl, rfl⟩, htag, rfl⟩
        rw [if_pos htag]

theorem readTag?_any (h : readTag? lengths tag b = some (content, rest)) :
    readTag? .any tag b = some (content, rest) := by
  obtain ⟨e, he, htag, hcontent⟩ := readTag?_eq_some_iff.mp h
  exact readTag?_eq_some_iff.mpr ⟨e, read?_any he, htag, hcontent⟩

theorem readOnly?_eq_some_iff : readOnly? lengths tag b = some content ↔
    readTag? lengths tag b = some (content, []) := by
  unfold readOnly?
  cases readTag? lengths tag b with
  | none => simp
  | some result =>
      obtain ⟨c, r⟩ := result
      cases r <;> simp

/-- The octets in a string of bits stand behind the number of those that are not used. -/
theorem tail_of_bits? {octets : Bytes} (h : bits? content = some octets) :
    octets = content.tail := by
  cases content with
  | nil => cases h
  | cons unused rest =>
      unfold bits? at h
      simp only at h
      cases hlast : rest.getLast? with
      | none =>
          rw [hlast] at h
          simp only at h
          split at h
          · cases h
            exact (List.getLast?_eq_none_iff.mp hlast).symm
          · cases h
      | some last =>
          rw [hlast] at h
          simp only at h
          split at h
          · cases h
            rfl
          · cases h

end Der
end CredentialServer
