import VlcWhisper.Lib.Wire

/-!
# A transport of records

A pipe that keeps record boundaries and their order, as a sequenced-packet socket does: a receive takes one whole
record, and a buffer that is too small for it loses the rest. `records` cuts what is sent into records of a limited
size. A receiver that has room for the next record takes all of it (`Pipe.recv_record`).
-/

namespace VlcWhisper.Lib

/-! ## Records -/

/-- The bytes, `limit` at a time. -/
def records (limit : Nat) (bs : Bytes) : List Bytes :=
  if 0 < limit ∧ bs ≠ [] then bs.take limit :: records limit (bs.drop limit) else []
termination_by bs.length
decreasing_by
  rename_i h
  have hpos := List.length_pos_of_ne_nil h.2
  rw [List.length_drop]
  omega

@[simp] theorem records_nil (limit : Nat) : records limit [] = [] := by
  rw [records, if_neg (by simp)]

theorem records_cons {limit : Nat} (hlimit : 0 < limit) {bs : Bytes} (h : bs ≠ []) :
    records limit bs = bs.take limit :: records limit (bs.drop limit) := by
  rw [records, if_pos ⟨hlimit, h⟩]

theorem records_of_length_le {limit : Nat} (hlimit : 0 < limit) {bs : Bytes} (h : bs ≠ []) (hle : bs.length ≤ limit) :
    records limit bs = [bs] := by
  rw [records_cons hlimit h, List.take_of_length_le hle, List.drop_of_length_le hle, records_nil]

theorem flatten_records {limit : Nat} (hlimit : 0 < limit) (bs : Bytes) : (records limit bs).flatten = bs := by
  induction bs using records.induct limit with
  | case1 bs h ih => rw [records_cons hlimit h.2, List.flatten_cons, ih, List.take_append_drop]
  | case2 bs h =>
    have hnil : bs = [] := by
      by_contra hne
      exact h ⟨hlimit, hne⟩
    rw [hnil, records_nil, List.flatten_nil]

theorem records_eq_nil_iff {limit : Nat} (hlimit : 0 < limit) {bs : Bytes} : records limit bs = [] ↔ bs = [] := by
  constructor
  · intro h
    rw [← flatten_records hlimit bs, h, List.flatten_nil]
  · rintro rfl
    exact records_nil limit

/-! ## The pipe -/

/-- What the receiver's end of a connection will see. -/
structure Pipe where
  inflight : List Bytes
  closed : Bool

/-- What a receive call meets: the next record, its time limit, or a failure of the connection. -/
inductive Arrival where
  | record
  | timeout
  | broken

inductive RecvRecord where
  | bytes (bs : Bytes)
  | eof
  | tooLong
  | again
  | broken

/-- One receive into a buffer of `capacity` bytes. -/
def Pipe.recv (p : Pipe) (capacity : Nat) : Arrival → RecvRecord × Pipe
  | .timeout => (.again, p)
  | .broken => (.broken, p)
  | .record =>
    match p.inflight with
    | [] => (if p.closed then .eof else .again, p)
    | r :: rest =>
      (if capacity < r.length then .tooLong else if r = [] then .eof else .bytes r, { p with inflight := rest })

theorem Pipe.recv_record {p : Pipe} {r : Bytes} {rest : List Bytes} (h : p.inflight = r :: rest) {capacity : Nat}
    (hfits : r.length ≤ capacity) (hne : r ≠ []) : p.recv capacity .record = (.bytes r, { p with inflight := rest }) := by
  unfold recv
  rw [h]
  dsimp only
  rw [if_neg (by omega), if_neg hne]

theorem Pipe.length_of_recv {p q : Pipe} {capacity : Nat} {a : Arrival} {bs : Bytes}
    (h : p.recv capacity a = (.bytes bs, q)) : bs ≠ [] ∧ bs.length ≤ capacity := by
  unfold recv at h
  split at h
  · simp at h
  · simp at h
  · split at h
    · split at h <;> simp at h
    · split at h
      · simp at h
      · split at h
        · simp at h
        · simp only [Prod.mk.injEq, RecvRecord.bytes.injEq] at h
          obtain ⟨rfl, -⟩ := h
          exact ⟨by assumption, by omega⟩

end VlcWhisper.Lib
