import EspSmoltcp.Glue.Dns
import EspSmoltcp.Machinery.Follows
import EspSmoltcp.Machinery.Window

/-!
# Glue/DnsWire — responses as they stand on the wire, and what `parse_a_response` reads of them

A response is its header, one question, the answer records and whatever follows.  An owner name takes one
of three forms: labels ended by a zero byte, a bare pointer, or labels ended by a pointer.

* `parseAResponse_of_buildQuery` — on the first two forms the walk arrives at every record and returns the
  first address.
* `readsFaithfully_of_skippable` — labels ended by a pointer are skipped with the pointer taken for a length.
  Where the skip runs off the packet, or comes down on the fixed part of a later record, no harm is done;
  anywhere else something is read as a record that is none of the answer section.
-/

namespace EspSmoltcp

/-! ## The format -/

/-- A label of a name. -/
structure Label where
  octets : Bytes
  pos : 0 < octets.length
  le : octets.length ≤ 63

/-- A label is written behind its length. -/
def Label.bytes (l : Label) : Bytes := .ofNat l.octets.length :: l.octets

/-- A compression pointer: two bytes, the two top bits set. -/
structure Pointer where
  hi : UInt8
  lo : UInt8
  top : hi &&& 0xC0 = 0xC0

/-- The owner name of a record. -/
inductive Owner
  | labels (ls : List Label)
  | pointer (p : Pointer)
  | labelsPointer (l : Label) (ls : List Label) (p : Pointer)

/-- A name without its end. -/
def labelsBytes (ls : List Label) : Bytes := ls.flatMap Label.bytes

namespace Owner

def bytes : Owner → Bytes
  | labels ls => labelsBytes ls ++ [0]
  | pointer p => [p.hi, p.lo]
  | labelsPointer l ls p => labelsBytes (l :: ls) ++ [p.hi, p.lo]

/-- Not labels ended by a pointer. -/
def Direct : Owner → Prop
  | labelsPointer .. => False
  | _ => True

instance : DecidablePred Direct
  | labels _ => isTrue trivial
  | pointer _ => isTrue trivial
  | labelsPointer .. => isFalse id

end Owner

/-- `u32::to_be_bytes`. -/
def u32ToBe (x : UInt32) : Bytes :=
  [.ofNat (x.toNat / 2 ^ 24), .ofNat (x.toNat / 2 ^ 16), .ofNat (x.toNat / 2 ^ 8), .ofNat x.toNat]

/-- A resource record. -/
structure Record where
  owner : Owner
  rtype : UInt16
  rclass : UInt16
  ttl : UInt32
  rdata : Bytes
  rdata_lt : rdata.length < 2 ^ 16

namespace Record

/-- TYPE, CLASS, TTL and RDLENGTH. -/
def fixed (r : Record) : Bytes :=
  u16ToBe r.rtype ++ (u16ToBe r.rclass ++ u32ToBe r.ttl ++ u16ToBe (.ofNat r.rdata.length))

def bytes (r : Record) : Bytes := r.owner.bytes ++ (r.fixed ++ r.rdata)

/-- The RDATA of a record with TYPE 1 and RDLENGTH 4. -/
def address? (r : Record) : Option Ipv4Address :=
  match r.rdata with
  | [a, b, c, d] => if r.rtype = 1 then some ⟨a, b, c, d⟩ else none
  | _ => none

end Record

/-- A record is an address record, or it is none. -/
theorem Record.address?_cases (r : Record) :
    (¬ (r.rtype = 1 ∧ r.rdata.length = 4) ∧ r.address? = none) ∨
      ∃ a b c d, r.rtype = 1 ∧ r.rdata = [a, b, c, d] ∧ r.address? = some ⟨a, b, c, d⟩ := by
  by_cases h : r.rtype = 1 ∧ r.rdata.length = 4
  · obtain ⟨a, b, c, d, hd⟩ : ∃ a b c d, r.rdata = [a, b, c, d] := by
      match hd : r.rdata, h.2 with
      | [a, b, c, d], _ => exact ⟨a, b, c, d, rfl⟩
    exact .inr ⟨a, b, c, d, h.1, hd, by simp only [address?, hd, if_pos h.1]⟩
  · refine .inl ⟨h, ?_⟩
    rw [address?]
    split
    · next hd => exact if_neg fun ht => h ⟨ht, by rw [hd]; rfl⟩
    · rfl

/-- A question with an uncompressed name. -/
structure Question where
  qname : List Label
  qtype : UInt16
  qclass : UInt16

def Question.bytes (q : Question) : Bytes :=
  labelsBytes q.qname ++ ([0] ++ (u16ToBe q.qtype ++ u16ToBe q.qclass))

/-- A response with one question; `trailing` is whatever follows the answer section. -/
structure Response where
  id : UInt16
  flags : UInt16
  nscount : UInt16
  arcount : UInt16
  question : Bytes
  answers : List Record
  trailing : Bytes

namespace Response

/-- The answer section. -/
def answerBytes (rs : List Record) : Bytes := rs.flatMap Record.bytes

def bytes (r : Response) : Bytes :=
  u16ToBe r.id ++ (u16ToBe r.flags ++ ([0, 1] ++ (u16ToBe (.ofNat r.answers.length) ++
    (u16ToBe r.nscount ++ u16ToBe r.arcount ++ (r.question ++ (answerBytes r.answers ++ r.trailing))))))

/-- Where the answer section starts. -/
def answersAt (r : Response) : ℕ := 12 + r.question.length

end Response

/-! ## Sizes -/

@[simp] theorem length_u16ToBe (x : UInt16) : (u16ToBe x).length = 2 := rfl

@[simp] theorem length_u32ToBe (x : UInt32) : (u32ToBe x).length = 4 := rfl

@[simp] theorem Label.length_bytes (l : Label) : l.bytes.length = 1 + l.octets.length := by
  rw [Label.bytes, List.length_cons, Nat.add_comm]

@[simp] theorem Record.length_fixed (r : Record) : r.fixed.length = 10 := rfl

theorem Record.length_bytes (r : Record) :
    r.bytes.length = r.owner.bytes.length + (10 + r.rdata.length) := by
  rw [Record.bytes, List.length_append, List.length_append, length_fixed]

theorem Owner.length_pos (o : Owner) : 0 < o.bytes.length := by
  rcases o with ls | p | ⟨l, ls, p⟩
  · simp [bytes]
  · simp [bytes]
  · simp [bytes]

theorem length_answerBytes_le (rs : List Record) : 11 * rs.length ≤ (Response.answerBytes rs).length := by
  induction rs with
  | nil => simp
  | cons r rs ih =>
    have ho := r.owner.length_pos
    rw [Response.answerBytes] at ih
    rw [Response.answerBytes, List.flatMap_cons, List.length_append, Record.length_bytes, List.length_cons]
    omega

theorem Response.length_bytes (r : Response) : r.bytes.length
    = r.answersAt + ((answerBytes r.answers).length + r.trailing.length) := by
  simp only [bytes, answersAt, List.length_append, length_u16ToBe, List.length_cons, List.length_nil]
  omega

/-! ## Fields -/

@[simp] theorem u16FromBe_u16ToBe (x : UInt16) :
    u16FromBe (.ofNat (x.toNat / 2 ^ 8)) (.ofNat x.toNat) = x := by
  have hx := x.toNat_lt
  rw [u16FromBe, ← UInt16.toNat_inj, UInt16.toNat_ofNat', UInt8.toNat_ofNat', UInt8.toNat_ofNat']
  omega

section Fields

variable {pkt : Bytes} {i : ℕ}

theorem byteAt_of_standsAt {b : UInt8} {a : Bytes} (h : pkt.StandsAt i (b :: a)) :
    byteAt pkt i = .ok b := by
  rw [byteAt, h.getElem?_cons]

/-- A field is read back as it was written. -/
theorem u16At_of_standsAt {x : UInt16} (h : pkt.StandsAt i (u16ToBe x)) : u16At pkt i = .ok x := by
  have h₀ := byteAt_of_standsAt h
  have h₁ := byteAt_of_standsAt (List.standsAt_cons.mp h).2
  simp only [u16At, h₀, h₁]
  exact congrArg Except.ok (u16FromBe_u16ToBe x)

end Fields

/-! ## Names -/

/-- The length byte of a label is not zero and has no top bit set. -/
theorem Label.length_byte (l : Label) : (UInt8.ofNat l.octets.length).toNat = l.octets.length ∧
    UInt8.ofNat l.octets.length ≠ 0 ∧ UInt8.ofNat l.octets.length &&& 0xC0 = 0 := by
  have key : ∀ n : Fin 64, 0 < n.val → (UInt8.ofNat n).toNat = n ∧ UInt8.ofNat n ≠ 0 ∧
      UInt8.ofNat n &&& 0xC0 = 0 := by decide
  exact key ⟨l.octets.length, Nat.lt_succ_of_le l.le⟩ l.pos

/-- A pointer read as a length is at least 192. -/
theorem Pointer.le_hi (p : Pointer) : 192 ≤ p.hi.toNat := by
  have key : ∀ n : Fin 256, UInt8.ofNat n &&& 0xC0 = 0xC0 → 192 ≤ (UInt8.ofNat n).toNat := by
    decide +kernel
  have := key ⟨p.hi.toNat, p.hi.toNat_lt⟩
  rw [UInt8.ofNat_toNat] at this
  exact this p.top

section Names

variable {pkt : Bytes} {i : ℕ}

theorem skipLabels_of_zero {a : Bytes} (h : pkt.StandsAt i (0 :: a)) : skipLabels pkt i = i := by
  have hi : i < pkt.length := by
    have := h.le
    rw [List.length_cons] at this
    omega
  rw [skipLabels, dif_pos hi, if_pos (h.getElem_cons hi)]

theorem skipQuestion_of_zero {a : Bytes} (h : pkt.StandsAt i (0 :: a)) :
    skipQuestion pkt i = some i := by
  have hi : i < pkt.length := by
    have := h.le
    rw [List.length_cons] at this
    omega
  rw [skipQuestion, dif_pos hi, if_pos (h.getElem_cons hi)]

/-- Any other byte is taken for a length. -/
theorem skipLabels_of_ne {b : UInt8} {a : Bytes} (h : pkt.StandsAt i (b :: a)) (hb : b ≠ 0) :
    skipLabels pkt i = skipLabels pkt (i + (1 + b.toNat)) := by
  have hi : i < pkt.length := by
    have := h.le
    rw [List.length_cons] at this
    omega
  rw [skipLabels, dif_pos hi, h.getElem_cons hi, if_neg hb]

theorem le_skipLabels (pkt : Bytes) (i : ℕ) : i ≤ skipLabels pkt i := by
  fun_induction skipLabels pkt i with
  | case1 => exact le_rfl
  | case2 i hi hne ih => omega
  | case3 => exact le_rfl

/-- **The skip crosses labels one by one.** -/
theorem skipLabels_labels {ls : List Label} (h : pkt.StandsAt i (labelsBytes ls)) :
    skipLabels pkt i = skipLabels pkt (i + (labelsBytes ls).length) := by
  induction ls generalizing i with
  | nil => rfl
  | cons l ls ih =>
    obtain ⟨hnat, hne, -⟩ := l.length_byte
    obtain ⟨hl, hls⟩ := List.standsAt_append.mp h
    rw [skipLabels_of_ne hl hne, hnat, ← l.length_bytes, ih hls, labelsBytes, labelsBytes,
      List.flatMap_cons, List.length_append, Nat.add_assoc]

theorem skipQuestion_labels {ls : List Label} (h : pkt.StandsAt i (labelsBytes ls)) :
    skipQuestion pkt i = skipQuestion pkt (i + (labelsBytes ls).length) := by
  induction ls generalizing i with
  | nil => rfl
  | cons l ls ih =>
    obtain ⟨hnat, hne, htop⟩ := l.length_byte
    obtain ⟨hl, hls⟩ := List.standsAt_append.mp h
    have hi : i < pkt.length := by
      have := hl.le
      rw [l.length_bytes] at this
      omega
    rw [skipQuestion, dif_pos hi, hl.getElem_cons hi, if_neg hne, if_neg (not_not.mpr htop), hnat,
      ← l.length_bytes, ih hls, labelsBytes, labelsBytes, List.flatMap_cons, List.length_append,
      Nat.add_assoc]

/-- The walk over the question arrives at its end. -/
theorem skipQuestion_question {q : Question} (h : pkt.StandsAt i q.bytes) :
    skipQuestion pkt i = some (i + (labelsBytes q.qname).length) := by
  obtain ⟨hls, hend⟩ := List.standsAt_append.mp h
  rw [skipQuestion_labels hls]
  exact skipQuestion_of_zero hend

theorem Question.length_bytes (q : Question) : q.bytes.length = (labelsBytes q.qname).length + 5 := by
  rw [Question.bytes, List.length_append]
  rfl

end Names

/-! ## Records -/

section Records

variable {pkt : Bytes} {i : ℕ} {r : Record}

/-- Where a turn of the answer loop takes the fixed part to start. -/
def skipOwner (pkt : Bytes) (i : ℕ) : Owner → ℕ
  | .pointer _ => i + 2
  | .labels _ => skipLabels pkt i + 1
  | .labelsPointer .. => skipLabels pkt i + 1

/-- Only a bare pointer starts with the two top bits set. -/
theorem Owner.skip_eq (o : Owner) : ∃ b a, o.bytes = b :: a ∧ ∀ pkt i,
    (if b &&& 0xC0 = 0xC0 then i + 2 else skipLabels pkt i + 1) = skipOwner pkt i o := by
  have hlabel : ∀ l : Label, UInt8.ofNat l.octets.length &&& 0xC0 ≠ 0xC0 := fun l => by
    rw [l.length_byte.2.2]
    decide
  rcases o with ls | p | ⟨l, ls, p⟩
  · rcases ls with _ | ⟨l, ls⟩
    · exact ⟨0, [], rfl, fun pkt i => if_neg (by decide)⟩
    · exact ⟨_, _, rfl, fun pkt i => if_neg (hlabel l)⟩
  · exact ⟨p.hi, [p.lo], rfl, fun pkt i => if_pos p.top⟩
  · exact ⟨_, _, rfl, fun pkt i => if_neg (hlabel l)⟩

/-- A turn of the answer loop on a record, as far as the owner name. -/
theorem fixedPartAt_of_standsAt (h : pkt.StandsAt i r.bytes) (hlen : i + 12 ≤ pkt.length) :
    fixedPartAt pkt i = .ok (if pkt.length < skipOwner pkt i r.owner + 10 then none
      else some (skipOwner pkt i r.owner)) := by
  obtain ⟨b, a, hba, hskip⟩ := r.owner.skip_eq
  have howner := (List.standsAt_append.mp h).1
  rw [hba] at howner
  rw [fixedPartAt, if_neg (not_lt.mpr hlen)]
  simp only [byteAt_of_standsAt howner, ← hskip]
  change (if pkt.length < (if b &&& 0xC0 = 0xC0 then i + 2 else skipLabels pkt i + 1) + 10 then _
    else _) = _
  split_ifs
  · rfl
  · rfl
  · rfl
  · rfl

/-- A direct owner name is skipped to its end. -/
theorem skipOwner_direct {o : Owner} (h : pkt.StandsAt i o.bytes) (ho : o.Direct) :
    skipOwner pkt i o = i + o.bytes.length := by
  rcases o with ls | p | ⟨l, ls, p⟩
  · obtain ⟨hls, hend⟩ := List.standsAt_append.mp h
    rw [skipOwner, skipLabels_labels hls, skipLabels_of_zero hend, Owner.bytes, List.length_append]
    rfl
  · rfl
  · exact ho.elim

/-- **Labels ended by a pointer are skipped too far.** -/
theorem lt_skipLabels {o : Owner} (h : pkt.StandsAt i o.bytes) (ho : ¬ o.Direct) :
    i + o.bytes.length < skipLabels pkt i + 1 := by
  rcases o with ls | p | ⟨l, ls, p⟩
  · exact absurd trivial ho
  · exact absurd trivial ho
  · obtain ⟨hls, hend⟩ := List.standsAt_append.mp h
    have hp := p.le_hi
    have hne : p.hi ≠ 0 := by
      rintro h0
      rw [h0] at hp
      exact absurd hp (by decide)
    have hle := le_skipLabels pkt (i + (labelsBytes (l :: ls)).length + (1 + p.hi.toNat))
    rw [← skipLabels_of_ne hend hne, ← skipLabels_labels hls] at hle
    rw [Owner.bytes, List.length_append, List.length_cons, List.length_cons, List.length_nil]
    omega

/-- The fixed part and the RDATA are read as they were written. -/
theorem readRecord_of_standsAt (h : pkt.StandsAt i (r.fixed ++ r.rdata)) :
    readRecord pkt i = .ok (match r.address? with
      | some a => .done (some a)
      | none => .next (i + (10 + r.rdata.length))) := by
  obtain ⟨hfixed, hrdata⟩ := List.standsAt_append.mp h
  rw [r.length_fixed] at hrdata
  obtain ⟨htype, hrest⟩ := List.standsAt_append.mp hfixed
  have hrdlen := (List.standsAt_append.mp hrest).2
  have hn : (UInt16.ofNat r.rdata.length).toNat = r.rdata.length := by
    rw [UInt16.toNat_ofNat', Nat.mod_eq_of_lt r.rdata_lt]
  have hle := hrdata.le
  have h8 : i + 8 = i + (u16ToBe r.rtype).length + (u16ToBe r.rclass ++ u32ToBe r.ttl).length := rfl
  rw [← h8] at hrdlen
  have hrt := u16At_of_standsAt htype
  have hrl := u16At_of_standsAt hrdlen
  simp only [readRecord, hrt, hrl]
  change (if pkt.length < i + 10 + (UInt16.ofNat r.rdata.length).toNat then _ else _) = _
  rw [hn, if_neg (not_lt.mpr hle)]
  obtain hnone | ⟨a, b, c, d, ht, hd, hsome⟩ := r.address?_cases
  · rw [hnone.2, if_neg hnone.1, Nat.add_assoc]
    rfl
  · rw [hd] at hrdata
    have hb := (List.standsAt_cons.mp hrdata).2
    have hc := (List.standsAt_cons.mp hb).2
    have hd' := (List.standsAt_cons.mp hc).2
    rw [hsome, if_pos ⟨ht, by rw [hd]; rfl⟩, byteAt_of_standsAt hrdata, byteAt_of_standsAt hb,
      byteAt_of_standsAt hc, byteAt_of_standsAt hd']
    rfl

/-- Where a turn on a directly named record takes the fixed part to start. -/
theorem fixedPartAt_direct (h : pkt.StandsAt i r.bytes) (hr : r.owner.Direct) :
    fixedPartAt pkt i
      = .ok (if pkt.length < i + 12 then none else some (i + r.owner.bytes.length)) := by
  by_cases hlen : pkt.length < i + 12
  · rw [fixedPartAt, if_pos hlen, if_pos hlen]
    rfl
  · have hle := h.le
    rw [r.length_bytes] at hle
    have hskip := skipOwner_direct (List.standsAt_append.mp h).1 hr
    rw [fixedPartAt_of_standsAt h (not_lt.mp hlen), hskip, if_neg (by omega), if_neg hlen]

/-- **A turn of the answer loop on a directly named record** returns its address, or goes on behind it. -/
theorem answerLoop_direct (h : pkt.StandsAt i r.bytes) (hr : r.owner.Direct) (n : ℕ) :
    answerLoop pkt (n + 1) i = if pkt.length < i + 12 then .ok none else
      match r.address? with
      | some a => .ok (some a)
      | none => answerLoop pkt n (i + r.bytes.length) := by
  have hbody := (List.standsAt_append.mp h).2
  simp only [answerLoop, fixedPartAt_direct h hr]
  split_ifs
  · rfl
  · change (readRecord pkt (i + r.owner.bytes.length) >>= _) = _
    rw [readRecord_of_standsAt hbody, Nat.add_assoc, ← r.length_bytes]
    rcases r.address? with _ | a
    · rfl
    · rfl

end Records

/-! ## The answer section -/

section Answers

variable {pkt : Bytes} {i : ℕ} {r : Record} {rs : List Record}

/-- Where the packet has no room for twelve bytes, nothing follows the record… -/
theorem eq_nil_of_short (h : pkt.StandsAt i (Response.answerBytes (r :: rs)))
    (hlen : pkt.length < i + 12) : rs = [] := by
  have hle := h.le
  have hrs := length_answerBytes_le rs
  have ho := r.owner.length_pos
  rw [Response.answerBytes, List.flatMap_cons, List.length_append, r.length_bytes] at hle
  rw [Response.answerBytes] at hrs
  exact List.length_eq_zero_iff.mp (by omega)

/-- …and the record holds no address. -/
theorem address?_of_short (h : pkt.StandsAt i r.bytes) (hlen : pkt.length < i + 12) :
    r.address? = none := by
  obtain hnone | ⟨a, b, c, d, -, hd, -⟩ := r.address?_cases
  · exact hnone.2
  · have hle := h.le
    rw [r.length_bytes, hd] at hle
    simp only [List.length_cons, List.length_nil] at hle
    omega

/-- **The answer loop finds the first address.** -/
theorem answerLoop_answers (h : pkt.StandsAt i (Response.answerBytes rs)) (hrs : ∀ r ∈ rs, r.owner.Direct) :
    answerLoop pkt rs.length i = .ok (rs.findSome? Record.address?) := by
  induction rs generalizing i with
  | nil => rfl
  | cons r rs ih =>
    obtain ⟨hr, htail⟩ := List.standsAt_append.mp h
    rw [List.length_cons, answerLoop_direct hr (hrs r List.mem_cons_self)]
    split_ifs with hlen
    · rw [eq_nil_of_short h hlen, List.findSome?_cons, address?_of_short hr hlen]
      rfl
    · rw [List.findSome?_cons]
      rcases r.address? with _ | a
      · exact ih htail fun r' hr' => hrs r' (List.mem_cons_of_mem r hr')
      · rfl

end Answers

/-! ## Responses -/

namespace Response

variable {r : Response}

/-- Where the parts of a response stand. -/
theorem standsAt (r : Response) :
    r.bytes.StandsAt 0 (u16ToBe r.id) ∧ r.bytes.StandsAt 2 (u16ToBe r.flags) ∧
      r.bytes.StandsAt 6 (u16ToBe (.ofNat r.answers.length)) ∧ r.bytes.StandsAt 12 r.question ∧
      r.bytes.StandsAt r.answersAt (answerBytes r.answers) := by
  have h := List.standsAt_zero r.bytes []
  rw [List.append_nil] at h
  obtain ⟨hid, h⟩ := List.standsAt_append.mp h
  obtain ⟨hflags, h⟩ := List.standsAt_append.mp h
  obtain ⟨-, h⟩ := List.standsAt_append.mp h
  obtain ⟨hancount, h⟩ := List.standsAt_append.mp h
  obtain ⟨-, h⟩ := List.standsAt_append.mp h
  obtain ⟨hquestion, h⟩ := List.standsAt_append.mp h
  exact ⟨hid, hflags, hancount, hquestion, (List.standsAt_append.mp h).1⟩

/-- There are as many records as ANCOUNT says. -/
theorem toNat_ancount (h : r.bytes.length ≤ 512) :
    (UInt16.ofNat r.answers.length).toNat = r.answers.length := by
  have hle := length_answerBytes_le r.answers
  rw [r.length_bytes] at h
  rw [UInt16.toNat_ofNat', Nat.mod_eq_of_lt]
  omega

/-- **The parser arrives at the answer section.** -/
theorem parseAResponse_bytes (h : r.bytes.length ≤ 512) (hrcode : r.flags &&& 0x000F = 0)
    {q : Question} (hq : r.question = q.bytes) :
    parseAResponse r.bytes r.id = answerLoop r.bytes r.answers.length r.answersAt := by
  obtain ⟨hid, hflags, hancount, hquestion, -⟩ := r.standsAt
  have hlen : ¬ r.bytes.length < 12 := by
    have := r.length_bytes
    rw [answersAt] at this
    omega
  rw [hq] at hquestion
  have hskip := skipQuestion_question hquestion
  have hat : 12 + (labelsBytes q.qname).length + (1 + 4) = r.answersAt := by
    rw [answersAt, hq, q.length_bytes, Nat.add_assoc]
  simp only [parseAResponse, if_neg hlen, u16At_of_standsAt hid, u16At_of_standsAt hflags,
    u16At_of_standsAt hancount, hskip]
  change (if r.id ≠ r.id then _ else _) = _
  rw [if_neg (not_not.mpr rfl)]
  change (if r.flags &&& 0x000F ≠ 0 then _ else _) = _
  rw [if_neg (not_not.mpr hrcode)]
  change (if UInt16.ofNat r.answers.length = 0 then _ else _) = _
  rw [hat, toNat_ancount h]
  split_ifs with h0
  · have := congrArg UInt16.toNat h0
    rw [toNat_ancount h] at this
    change r.answers.length = 0 at this
    rw [this]
    rfl
  · rfl

end Response

/-! ## Encoder and decoder -/

/-- What the label loop accepts is labels. -/
theorem encodeLabels_eq_some {labels : List (List Char)} {b : Bytes} (h : encodeLabels labels = some b) :
    ∃ ls, b = labelsBytes ls := by
  induction labels generalizing b with
  | nil =>
    obtain rfl := Option.some.inj h
    exact ⟨[], rfl⟩
  | cons label labels ih =>
    rw [encodeLabels] at h
    split_ifs at h with hbad
    obtain ⟨hne, hle⟩ := not_or.mp hbad
    obtain ⟨rest, hrest, hb⟩ := Option.bind_eq_some_iff.mp h
    obtain ⟨ls, rfl⟩ := ih hrest
    obtain rfl := Option.some.inj hb
    have hpos : 0 < (asBytes label).length :=
      List.length_pos_iff.mpr fun h0 => hne (List.isEmpty_iff.mpr h0)
    exact ⟨⟨asBytes label, hpos, not_lt.mp hle⟩ :: ls, rfl⟩

/-- The query carries one question with an uncompressed name. -/
theorem question_buildQuery {id : UInt16} {cs : List Char} {query : Bytes}
    (h : buildQuery id cs = some query) : ∃ q : Question, query.drop 12 = q.bytes := by
  obtain ⟨qname, hq, he⟩ := Option.bind_eq_some_iff.mp h
  obtain ⟨ls, rfl⟩ := encodeLabels_eq_some hq
  obtain rfl := Option.some.inj he
  refine ⟨⟨ls, 1, 1⟩, ?_⟩
  have hone : u16ToBe 1 = [0, 1] := by decide
  change labelsBytes ls ++ [0] ++ [0, 1] ++ [0, 1] = _
  rw [List.append_assoc, List.append_assoc, Question.bytes, hone]

/-- **Encoder and decoder agree**: on a response to a query whose owner names are pointers or labels ended
by zero, the parser returns the first address of the answer section, and nothing if there is none. -/
theorem parseAResponse_of_buildQuery {id : UInt16} {cs : List Char} {query : Bytes}
    (hquery : buildQuery id cs = some query) (r : Response) (hid : r.id = id)
    (hrcode : r.flags &&& 0x000F = 0) (hquestion : r.question = query.drop 12)
    (howners : ∀ a ∈ r.answers, a.owner.Direct) (hlen : r.bytes.length ≤ 512) :
    parseAResponse r.bytes id = .ok (r.answers.findSome? Record.address?) := by
  obtain ⟨q, hq⟩ := question_buildQuery hquery
  obtain ⟨-, -, -, -, hanswers⟩ := r.standsAt
  rw [← hid, Response.parseAResponse_bytes hlen hrcode (hquestion.trans hq)]
  exact answerLoop_answers hanswers howners

/-- The label `a`. -/
def labelA : Label := ⟨[97], by decide, by decide⟩

/-- The pointer to the name of the question. -/
def pointerToQuestion : Pointer := ⟨0xC0, 12, by decide⟩

/-- A response to the query for `a`: a CNAME record, then an address record. -/
def aliasResponse : Response where
  id := 7
  flags := 0x8180
  nscount := 0
  arcount := 0
  question := [1, 97, 0, 0, 1, 0, 1]
  answers := [⟨.pointer pointerToQuestion, 5, 1, 60, [1, 98, 0], by decide⟩,
    ⟨.labels [⟨[98], by decide, by decide⟩], 1, 1, 60, [10, 0, 0, 1], by decide⟩]
  trailing := []

/-- The address behind the alias is returned. -/
theorem parseAResponse_aliasResponse :
    buildQuery 7 ['a'] = some [0, 7, 1, 0, 0, 1, 0, 0, 0, 0, 0, 0, 1, 97, 0, 0, 1, 0, 1] ∧
      parseAResponse aliasResponse.bytes 7 = .ok (some ⟨10, 0, 0, 1⟩) := by
  have hquery : buildQuery 7 ['a'] = some [0, 7, 1, 0, 0, 1, 0, 0, 0, 0, 0, 0, 1, 97, 0, 0, 1, 0, 1] := by
    decide
  exact ⟨hquery, parseAResponse_of_buildQuery hquery aliasResponse rfl (by decide) (by decide)
    (by decide) (by decide)⟩

/-! ## Where the records were written -/

/-- Where the fixed parts of records written from `i` on stand. -/
def fixedParts : ℕ → List Record → List ℕ
  | _, [] => []
  | i, r :: rs => (i + r.owner.bytes.length) :: fixedParts (i + r.bytes.length) rs

/-- The offset is in the RDATA of one of the records written from `i` on. -/
def InRdata : ℕ → List Record → ℕ → Prop
  | _, [], _ => False
  | i, r :: rs, k => (i + r.owner.bytes.length + 10 ≤ k ∧ k < i + r.bytes.length) ∨
    InRdata (i + r.bytes.length) rs k

/-- Of the records written from `i` on, `r` is written at `j`, and `post` behind it. -/
def WrittenAt (i : ℕ) (rs : List Record) (j : ℕ) (r : Record) (post : List Record) : Prop :=
  ∃ pre, rs = pre ++ r :: post ∧ j = i + (Response.answerBytes pre).length

section Written

variable {pkt : Bytes} {i j k t : ℕ} {r r' : Record} {rs post : List Record}

theorem answerBytes_cons (r : Record) (rs : List Record) :
    Response.answerBytes (r :: rs) = r.bytes ++ Response.answerBytes rs := rfl

theorem WrittenAt.head (i : ℕ) (r : Record) (rs : List Record) : WrittenAt i (r :: rs) i r rs := ⟨[], rfl, rfl⟩

theorem WrittenAt.tail (h : WrittenAt (i + r.bytes.length) rs j r' post) : WrittenAt i (r :: rs) j r' post := by
  obtain ⟨pre, rfl, rfl⟩ := h
  exact ⟨r :: pre, rfl, by rw [answerBytes_cons, List.length_append, Nat.add_assoc]⟩

theorem WrittenAt.standsAt (h : WrittenAt i rs j r post) (hrs : pkt.StandsAt i (Response.answerBytes rs)) :
    pkt.StandsAt j r.bytes ∧ pkt.StandsAt (j + r.bytes.length) (Response.answerBytes post) := by
  obtain ⟨pre, rfl, rfl⟩ := h
  rw [Response.answerBytes, List.flatMap_append] at hrs
  exact List.standsAt_append.mp (List.standsAt_append.mp hrs).2

theorem fixedParts_append (i : ℕ) (as bs : List Record) :
    fixedParts i (as ++ bs) = fixedParts i as ++ fixedParts (i + (Response.answerBytes as).length) bs := by
  induction as generalizing i with
  | nil => rfl
  | cons a as ih =>
    rw [List.cons_append, fixedParts, ih, fixedParts, answerBytes_cons, List.length_append, Nat.add_assoc]
    rfl

/-- The fixed parts stand inside the records. -/
theorem bounds_of_mem_fixedParts (h : t ∈ fixedParts i rs) :
    i < t ∧ t + 10 ≤ i + (Response.answerBytes rs).length := by
  induction rs generalizing i with
  | nil => cases h
  | cons r rs ih =>
    have ho := r.owner.length_pos
    rw [answerBytes_cons, List.length_append, r.length_bytes]
    obtain rfl | h := List.mem_cons.mp h
    · omega
    · have hrest := ih h
      rw [r.length_bytes] at hrest
      omega

theorem exists_writtenAt (h : t ∈ fixedParts i rs) :
    ∃ j r post, WrittenAt i rs j r post ∧ t = j + r.owner.bytes.length := by
  induction rs generalizing i with
  | nil => cases h
  | cons r rs ih =>
    obtain rfl | h := List.mem_cons.mp h
    · exact ⟨i, r, rs, .head i r rs, rfl⟩
    · obtain ⟨j, r', post, hw, rfl⟩ := ih h
      exact ⟨j, r', post, hw.tail, rfl⟩

/-- What stands where, around one of the records. -/
theorem WrittenAt.mem_fixedParts (h : WrittenAt i rs j r post) (t : ℕ) : t ∈ fixedParts i rs ↔
    (t ∈ fixedParts i rs ∧ t + 10 ≤ j) ∨ t = j + r.owner.bytes.length ∨
      t ∈ fixedParts (j + r.bytes.length) post := by
  obtain ⟨pre, rfl, rfl⟩ := h
  rw [fixedParts_append, fixedParts, List.mem_append, List.mem_cons]
  constructor
  · rintro (hpre | hrest)
    · exact .inl ⟨.inl hpre, (bounds_of_mem_fixedParts hpre).2⟩
    · exact .inr hrest
  · rintro (⟨h, -⟩ | hrest)
    · exact h
    · exact .inr hrest

/-- A fixed part keeps clear of the RDATA. -/
theorem not_inRdata_of_mem_fixedParts (h : t ∈ fixedParts i rs) (hk : t ≤ k) (hk10 : k < t + 10) :
    ¬ InRdata i rs k := by
  have hbelow : ∀ {i rs k}, InRdata i rs k → i < k := by
    intro i rs k hin
    induction rs generalizing i with
    | nil => exact hin.elim
    | cons r rs ih =>
      obtain hin | hin := hin
      · omega
      · have := ih hin
        omega
  induction rs generalizing i with
  | nil => cases h
  | cons r rs ih =>
    have hlen := r.length_bytes
    obtain rfl | h := List.mem_cons.mp h
    · rintro (hin | hin)
      · omega
      · have := hbelow hin
        omega
    · have hlt := (bounds_of_mem_fixedParts h).1
      rintro (hin | hin)
      · omega
      · exact ih h hin

end Written

/-! ## Reading the answer section as it was written -/

/-- The offsets at which the answer loop reads the fixed part of a record, with `n` records to go. -/
def recordsRead (pkt : Bytes) : ℕ → ℕ → List ℕ
  | 0, _ => []
  | n + 1, i =>
    match fixedPartAt pkt i with
    | .ok (some t) =>
      t :: match readRecord pkt t with
        | .ok (.next j) => recordsRead pkt n j
        | _ => []
    | _ => []

/-- The offsets at which `parse_a_response` reads the fixed part of a record. -/
def recordsParsed (pkt : Bytes) : List ℕ :=
  match u16At pkt 6, skipQuestion pkt 12 with
  | .ok n, some i => recordsRead pkt n.toNat (i + (1 + 4))
  | _, _ => []

/-- What the parser reads of a response is what was written: an address it returns is that of an address record
of the answer section, and no byte of a fixed part it reads is in the RDATA of a record of that section. -/
structure ReadsFaithfully (r : Response) : Prop where
  sound : ∀ a, parseAResponse r.bytes r.id = .ok (some a) → ∃ rec ∈ r.answers, rec.address? = some a
  rdata : ∀ t ∈ recordsParsed r.bytes, ∀ k, t ≤ k → k < t + 10 → ¬ InRdata r.answersAt r.answers k

/-- With `n` turns to go and the records from `i` on ahead, the walk up to the first address only comes down on
fixed parts.  A direct owner name is skipped to its end; the skip over labels ended by a pointer runs off the
packet, or comes down on the fixed part of a later record, and the walk goes on behind that one; and with turns
to go behind the last record it finds no fixed part there. -/
def Skippable (pkt : Bytes) : ℕ → ℕ → List Record → Prop
  | 0, _, _ => True
  | _ + 1, i, [] => ∀ t, fixedPartAt pkt i ≠ .ok (some t)
  | n + 1, i, r :: rs =>
    if r.owner.Direct then r.address? = none → Skippable pkt n (i + r.bytes.length) rs
    else pkt.length < skipLabels pkt i + 1 + 10 ∨
      ∃ j r' post, WrittenAt (i + r.bytes.length) rs j r' post ∧
        skipLabels pkt i + 1 = j + r'.owner.bytes.length ∧
        (r'.address? = none → Skippable pkt n (j + r'.bytes.length) post)

section Faithful

variable {pkt : Bytes} {i j n t : ℕ} {r r' : Record} {rs post : List Record}

/-- Where the fixed part of a record starts, if the packet is long enough. -/
theorem fixedPartAt_eq_some_iff : fixedPartAt pkt i = .ok (some j) ↔ i + 12 ≤ pkt.length ∧ ∃ b, byteAt pkt i = .ok b ∧
    j = (if b &&& 0xC0 = 0xC0 then i + 2 else skipLabels pkt i + 1) ∧ j + 10 ≤ pkt.length := by
  rw [fixedPartAt]
  by_cases hshort : pkt.length < i + 12
  · rw [if_pos hshort]
    refine iff_of_false (fun h => Option.some_ne_none j (Except.ok.inj h).symm) ?_
    rintro ⟨hlen, -⟩
    omega
  rw [if_neg hshort, and_iff_right (not_lt.mp hshort), Except.bind_eq_ok_iff]
  refine exists_congr fun b => and_congr_right fun _ => ?_
  change (if pkt.length < (if b &&& 0xC0 = 0xC0 then i + 2 else skipLabels pkt i + 1) + 10 then Except.ok none
    else Except.ok (some _)) = _ ↔ _
  generalize (if b &&& 0xC0 = 0xC0 then i + 2 else skipLabels pkt i + 1) = k
  constructor
  · intro h
    split_ifs at h with hlong
    · cases h
    · obtain rfl := Option.some.inj (Except.ok.inj h)
      exact ⟨rfl, not_lt.mp hlong⟩
  · rintro ⟨rfl, hlen⟩
    rw [if_neg (not_lt.mpr hlen)]

/-- What is read of a record whose type and length can be read. -/
theorem readRecord_eq {qtype rdlen : UInt16} (hq : u16At pkt i = .ok qtype) (hr : u16At pkt (i + 8) = .ok rdlen) :
    readRecord pkt i =
      if pkt.length < i + 10 + rdlen.toNat then .ok (.done none)
      else if qtype = 1 ∧ rdlen.toNat = 4 then do
        return .done (some ⟨← byteAt pkt (i + 10), ← byteAt pkt (i + 10 + 1), ← byteAt pkt (i + 10 + 2),
          ← byteAt pkt (i + 10 + 3)⟩)
      else .ok (.next (i + 10 + rdlen.toNat)) := by
  rw [readRecord, hq, hr]
  rfl

theorem le_of_readRecord (h : readRecord pkt i = .ok (.next j)) : i + 10 ≤ j := by
  obtain ⟨qtype, hq, hrest⟩ := Except.bind_eq_ok_iff.mp h
  obtain ⟨rdlen, hr, -⟩ := Except.bind_eq_ok_iff.mp hrest
  rw [readRecord_eq hq hr] at h
  split_ifs at h
  · cases h
  · obtain ⟨a, -, h⟩ := Except.bind_eq_ok_iff.mp h
    obtain ⟨b, -, h⟩ := Except.bind_eq_ok_iff.mp h
    obtain ⟨c, -, h⟩ := Except.bind_eq_ok_iff.mp h
    obtain ⟨d, -, h⟩ := Except.bind_eq_ok_iff.mp h
    cases h
  · obtain rfl := AnswerTurn.next.inj (Except.ok.inj h)
    exact Nat.le_add_right _ _

/-- The fixed parts read lie behind where the loop has got to. -/
theorem lt_of_mem_recordsRead (h : t ∈ recordsRead pkt n i) : i < t := by
  induction n generalizing i with
  | zero => cases h
  | succ n ih =>
    rw [recordsRead] at h
    rcases hfixed : fixedPartAt pkt i with e | _ | t₀
    · rw [hfixed] at h
      cases h
    · rw [hfixed] at h
      cases h
    · obtain ⟨-, b, -, ht₀, -⟩ := fixedPartAt_eq_some_iff.mp hfixed
      have hskip := le_skipLabels pkt i
      have hlt : i < t₀ := by
        split_ifs at ht₀
        · omega
        · omega
      rw [hfixed] at h
      obtain rfl | h := List.mem_cons.mp h
      · exact hlt
      · rcases hread : readRecord pkt t₀ with e | _ | j
        · rw [hread] at h
          cases h
        · rw [hread] at h
          cases h
        · rw [hread] at h
          have := ih h
          have := le_of_readRecord hread
          omega

/-- **A turn that comes down on the fixed part of a record** reads that record. -/
theorem recordsRead_of_fixedPart (h : pkt.StandsAt j r.bytes)
    (hfixed : fixedPartAt pkt i = .ok (some (j + r.owner.bytes.length))) (n : ℕ) :
    recordsRead pkt (n + 1) i = (j + r.owner.bytes.length) :: match r.address? with
      | some _ => []
      | none => recordsRead pkt n (j + r.bytes.length) := by
  rw [recordsRead, hfixed]
  simp only [readRecord_of_standsAt (List.standsAt_append.mp h).2, Nat.add_assoc, ← r.length_bytes]
  rcases r.address? with _ | a
  · rfl
  · rfl

/-- The fixed part of a record whose owner name is labels ended by a pointer is looked for elsewhere. -/
theorem fixedPartAt_not_direct (h : pkt.StandsAt i r.bytes) (hr : ¬ r.owner.Direct) :
    fixedPartAt pkt i = .ok (if pkt.length < skipLabels pkt i + 1 + 10 then none
      else some (skipLabels pkt i + 1)) := by
  have hle := h.le
  rcases ho : r.owner with ls | p | ⟨l, ls, p⟩
  · exact absurd (by rw [ho]; trivial) hr
  · exact absurd (by rw [ho]; trivial) hr
  · have hlen : i + 12 ≤ pkt.length := by
      rw [r.length_bytes, ho, Owner.bytes, List.length_append] at hle
      simp only [List.length_cons, List.length_nil] at hle
      omega
    rw [fixedPartAt_of_standsAt h hlen, ho]
    rfl

/-- **One record**: what is read behind it is of the section exactly if what is read from it on is. -/
theorem recordsRead_subset_iff_of_fixedPart (h : pkt.StandsAt j r'.bytes) (hw : WrittenAt i rs j r' post)
    (hfixed : fixedPartAt pkt i = .ok (some (j + r'.owner.bytes.length))) :
    (∀ t ∈ recordsRead pkt (n + 1) i, t ∈ fixedParts i rs) ↔
      (r'.address? = none → ∀ t ∈ recordsRead pkt n (j + r'.bytes.length),
        t ∈ fixedParts (j + r'.bytes.length) post) := by
  have hhere : j + r'.owner.bytes.length ∈ fixedParts i rs := (hw.mem_fixedParts _).mpr (.inr (.inl rfl))
  have hlen := r'.length_bytes
  rw [recordsRead_of_fixedPart h hfixed, List.forall_mem_cons, and_iff_right hhere]
  rcases r'.address? with _ | a
  · rw [imp_iff_right rfl]
    refine forall₂_congr fun t ht => ?_
    have hlt := lt_of_mem_recordsRead ht
    rw [hw.mem_fixedParts]
    constructor
    · rintro (⟨-, hle⟩ | rfl | hpost)
      · omega
      · omega
      · exact hpost
    · exact fun hpost => .inr (.inr hpost)
  · simp

/-- **All that is read as a record is one of the section's exactly if the walk only comes down on fixed
parts.** -/
theorem recordsRead_subset_iff (h : pkt.StandsAt i (Response.answerBytes rs)) :
    (∀ t ∈ recordsRead pkt n i, t ∈ fixedParts i rs) ↔ Skippable pkt n i rs := by
  induction n generalizing i rs with
  | zero => exact iff_of_true (fun t ht => absurd ht List.not_mem_nil) trivial
  | succ n ih =>
    rcases rs with _ | ⟨r, rs⟩
    · rw [Skippable, recordsRead]
      rcases fixedPartAt pkt i with e | _ | t
      · simp
      · simp
      · exact iff_of_false (fun hall => List.not_mem_nil (hall t List.mem_cons_self)) fun hnone => hnone t rfl
    obtain ⟨hr, htail⟩ := List.standsAt_append.mp h
    rw [Skippable]
    by_cases hd : r.owner.Direct
    · rw [if_pos hd]
      by_cases hlen : pkt.length < i + 12
      · -- The record is the last one, and there is no room behind it.
        have hnone : recordsRead pkt (n + 1) i = [] := by
          rw [recordsRead, fixedPartAt_direct hr hd, if_pos hlen]
        rw [hnone, eq_nil_of_short h hlen]
        refine iff_of_true (fun t ht => absurd ht List.not_mem_nil) fun _ => ?_
        rcases n with _ | n
        · trivial
        · intro t ht
          have := (fixedPartAt_eq_some_iff.mp ht).1
          omega
      · have hfixed := fixedPartAt_direct hr hd
        rw [if_neg hlen] at hfixed
        rw [recordsRead_subset_iff_of_fixedPart hr (.head i r rs) hfixed]
        exact imp_congr_right fun _ => ih htail
    · rw [if_neg hd]
      have hfixed := fixedPartAt_not_direct hr hd
      by_cases hoff : pkt.length < skipLabels pkt i + 1 + 10
      · have hnone : recordsRead pkt (n + 1) i = [] := by
          rw [recordsRead, hfixed, if_pos hoff]
        rw [hnone]
        exact iff_of_true (fun t ht => absurd ht List.not_mem_nil) (.inl hoff)
      rw [if_neg hoff] at hfixed
      rw [or_iff_right hoff]
      constructor
      · intro hall
        have hhere : skipLabels pkt i + 1 ∈ recordsRead pkt (n + 1) i := by
          rw [recordsRead, hfixed]
          exact List.mem_cons_self
        -- It is not the fixed part of this record, which is not as far.
        have hlt := lt_skipLabels (List.standsAt_append.mp hr).1 hd
        obtain heq | hlater := List.mem_cons.mp (hall _ hhere)
        · omega
        obtain ⟨j, r', post, hw, ht⟩ := exists_writtenAt hlater
        have hst := hw.standsAt htail
        rw [ht] at hfixed
        have hrest := (recordsRead_subset_iff_of_fixedPart hst.1 hw.tail hfixed).mp hall
        exact ⟨j, r', post, hw, ht, fun ha => (ih hst.2).mp (hrest ha)⟩
      · rintro ⟨j, r', post, hw, ht, hrest⟩
        have hst := hw.standsAt htail
        rw [ht] at hfixed
        exact (recordsRead_subset_iff_of_fixedPart hst.1 hw.tail hfixed).mpr fun ha => (ih hst.2).mpr (hrest ha)

/-- An address the loop returns was read behind one of the fixed parts. -/
theorem exists_of_answerLoop {a : Ipv4Address} (h : answerLoop pkt n i = .ok (some a)) :
    ∃ t ∈ recordsRead pkt n i, readRecord pkt t = .ok (.done (some a)) := by
  induction n generalizing i with
  | zero => cases h
  | succ n ih =>
    obtain ⟨fixed, hfixed, h⟩ := Except.bind_eq_ok_iff.mp h
    rcases fixed with _ | t
    · cases h
    obtain ⟨turn, hturn, h⟩ := Except.bind_eq_ok_iff.mp h
    rw [recordsRead, hfixed]
    rcases turn with r | j
    · obtain rfl := Except.ok.inj h
      exact ⟨t, List.mem_cons_self, hturn⟩
    · obtain ⟨t', ht', hread⟩ := ih h
      refine ⟨t', List.mem_cons_of_mem t ?_, hread⟩
      rw [hturn]
      exact ht'

/-- Behind the fixed part of a record of the section it is the address of that record. -/
theorem address?_of_mem_fixedParts (h : pkt.StandsAt i (Response.answerBytes rs)) (ht : t ∈ fixedParts i rs)
    {a : Ipv4Address} (hread : readRecord pkt t = .ok (.done (some a))) : ∃ r ∈ rs, r.address? = some a := by
  obtain ⟨j, r, post, hw, rfl⟩ := exists_writtenAt ht
  have hst := (List.standsAt_append.mp (hw.standsAt h).1).2
  rw [readRecord_of_standsAt hst] at hread
  obtain ⟨pre, rfl, -⟩ := hw
  refine ⟨r, List.mem_append_right pre List.mem_cons_self, ?_⟩
  rcases ha : r.address? with _ | b
  · rw [ha] at hread
    cases hread
  · rw [ha] at hread
    exact AnswerTurn.done.inj (Except.ok.inj hread)

end Faithful

/-- The parser reads the answer section. -/
theorem recordsParsed_bytes {r : Response} (h : r.bytes.length ≤ 512) {q : Question}
    (hq : r.question = q.bytes) :
    recordsParsed r.bytes = recordsRead r.bytes r.answers.length r.answersAt := by
  obtain ⟨-, -, hancount, hquestion, -⟩ := r.standsAt
  rw [hq] at hquestion
  have hat : 12 + (labelsBytes q.qname).length + (1 + 4) = r.answersAt := by
    rw [Response.answersAt, hq, q.length_bytes, Nat.add_assoc]
  simp only [recordsParsed, u16At_of_standsAt hancount, skipQuestion_question hquestion, hat,
    Response.toNat_ancount h]

/-- **A response is read as it was written if its owner names can be skipped**; and if they cannot, then something
is read as a record that is none of the answer section. -/
theorem readsFaithfully_of_skippable (r : Response) (hrcode : r.flags &&& 0x000F = 0) (q : Question)
    (hq : r.question = q.bytes) (hlen : r.bytes.length ≤ 512) :
    (Skippable r.bytes r.answers.length r.answersAt r.answers → ReadsFaithfully r) ∧
      (¬ Skippable r.bytes r.answers.length r.answersAt r.answers →
        ∃ t ∈ recordsParsed r.bytes, t ∉ fixedParts r.answersAt r.answers) := by
  obtain ⟨-, -, -, -, hanswers⟩ := r.standsAt
  have hiff := recordsRead_subset_iff (n := r.answers.length) hanswers
  rw [← recordsParsed_bytes hlen hq] at hiff
  constructor
  · intro h
    have hall := hiff.mpr h
    refine ⟨fun a ha => ?_, fun t ht k => not_inRdata_of_mem_fixedParts (hall t ht)⟩
    rw [Response.parseAResponse_bytes hlen hrcode hq] at ha
    obtain ⟨t, ht, hread⟩ := exists_of_answerLoop ha
    rw [← recordsParsed_bytes hlen hq] at ht
    exact address?_of_mem_fixedParts hanswers (hall t ht) hread
  · intro h
    have hnot := mt hiff.mp h
    simpa only [not_forall, exists_prop] using hnot

/-- A response to the query for `a`: a TXT record owned by `w.a` as a label and a pointer, and an address record.
The skip over the first owner name comes down on the fixed part of the second record. -/
def textThenAddress : Response where
  id := 7
  flags := 0x8180
  nscount := 0
  arcount := 0
  question := [1, 97, 0, 0, 1, 0, 1]
  answers := [⟨.labelsPointer ⟨[119], by decide, by decide⟩ [] pointerToQuestion, 16, 1, 60,
      180 :: List.replicate 180 120, by decide +kernel⟩,
    ⟨.labels [], 1, 1, 60, [10, 0, 0, 1], by decide⟩]
  trailing := []

/-- It is read as it was written. -/
theorem readsFaithfully_textThenAddress : ReadsFaithfully textThenAddress := by
  refine (readsFaithfully_of_skippable textThenAddress (by decide) ⟨[labelA], 1, 1⟩ (by decide)
    (by decide +kernel)).1 ?_
  refine .inr ⟨214, ⟨.labels [], 1, 1, 60, [10, 0, 0, 1], by decide⟩, [], ⟨[], rfl, ?_⟩, ?_, ?_⟩
  · decide +kernel
  · decide +kernel
  · exact fun h => absurd h (by decide)

/-- A response to the query for `a` with one TXT record, owned by `w.a` as a label and a pointer.  Its text
holds, where the skip over the owner name arrives, what an address record looks like. -/
def forgedText : Response where
  id := 7
  flags := 0x8180
  nscount := 0
  arcount := 0
  question := [1, 97, 0, 0, 1, 0, 1]
  answers := [⟨.labelsPointer ⟨[119], by decide, by decide⟩ [] pointerToQuestion, 16, 1, 60,
    195 :: (List.replicate 180 120 ++ [0, 0, 1, 0, 1, 0, 0, 0, 60, 0, 4, 6, 6, 6, 6]), by decide +kernel⟩]
  trailing := []

/-- **Text is taken for an address.** -/
theorem forgedText_misread : forgedText.bytes.length ≤ 512 ∧
    parseAResponse forgedText.bytes 7 = .ok (some ⟨6, 6, 6, 6⟩) ∧ ¬ ReadsFaithfully forgedText := by
  have hparse : parseAResponse forgedText.bytes 7 = .ok (some ⟨6, 6, 6, 6⟩) := by decide +kernel
  refine ⟨by decide +kernel, hparse, fun h => ?_⟩
  obtain ⟨rec, hrec, ha⟩ := h.sound _ hparse
  obtain rfl := List.mem_singleton.mp hrec
  cases ha

end EspSmoltcp
