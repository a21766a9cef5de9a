import Ls8.Proofs.Trace.Recent
import Mathlib.Data.List.Forall2

/-
  What a recorder tells of the calls it was given.

  1. **Calls.**  A recorder watches a processor that goes on changing.  A call gives it an opcode, a name
     and a note, and it looks at the processor as it is at that moment (`Watch`, `calls`).  All numbers
     may be of any size.

  2. **What is shown** of a call is its numbers modulo 256, and the rest as it was (`Call.Shown`).  Its
     entry shows a call (`Call.shown_entry`).

  3. **The end of the calls.**  However the circle of slots has been filled, what is in it is the end of
     the list of calls, and a request gets the end of that (`entries_recorded`).

  Main statement: `recorder_keeps_last_calls`.
-/

namespace Ls8.Trace

/-- **A call of a recorder,** with the processor as it was then. -/
structure Call where
  sample : Sample
  opcode : Option Int
  mnemonic : String
  note : String

/-- The entry of a call. -/
def Call.entry (c : Call) : Entry := .ofSample c.sample c.opcode c.mnemonic c.note

/-- **An entry shows a call:** every number of the call modulo 256, and the rest as it was. -/
structure Call.Shown (c : Call) (e : Entry) : Prop where
  pc : (e.pc.toNat : Int) = c.sample.pc % 256
  opcode : e.opcode.map (fun b => (b.toNat : Int)) = c.opcode.map (· % 256)
  registers : e.registers.map (fun b => (b.toNat : Int)) = c.sample.registers.map (· % 256)
  mnemonic : e.mnemonic = c.mnemonic
  equal : e.equal = c.sample.equal
  interruptsEnabled : e.interruptsEnabled = c.sample.interruptsEnabled
  halted : e.halted = c.sample.halted
  note : e.note = c.note

/-- **A call is shown by its entry.** -/
theorem Call.shown_entry (c : Call) : c.Shown c.entry := by
  have hbytes : ((fun b : UInt8 => (b.toNat : Int)) ∘ UInt8.ofInt) = (· % 256) :=
    funext toNat_ofInt
  constructor
  case pc => exact toNat_ofInt _
  case opcode =>
    show (c.opcode.map UInt8.ofInt).map _ = _
    rw [Option.map_map, hbytes]
  case registers =>
    show (c.sample.registers.map UInt8.ofInt).map _ = _
    rw [List.map_map, hbytes]
  all_goals rfl

/-! ## A recorder and the processor it watches -/

/-- **What happens while a recorder watches:** the processor becomes another one, or a call is made. -/
inductive Watch where
  | change (s : Sample)
  | call (opcode : Option Int) (mnemonic note : String)

/-- A change does not reach the recorder; a call looks at the processor as it is. -/
def Watch.apply : Sample × Recorder → Watch → Sample × Recorder
  | (_, r), .change s => (s, r)
  | (s, r), .call opcode mnemonic note => (s, r.record (.ofSample s opcode mnemonic note))

/-- **The calls that are made,** each with the processor as it is then. -/
def calls (s : Sample) : List Watch → List Call
  | [] => []
  | .change s :: rest => calls s rest
  | .call opcode mnemonic note :: rest => ⟨s, opcode, mnemonic, note⟩ :: calls s rest

/-- How many of `n` calls a request gets, at most `limit` of them. -/
def kept (n capacity : Nat) : Option Int → Nat
  | none => min n capacity
  | some limit => min (min n capacity) (max limit 0).toNat

/-- **The recorder is given the entries of the calls,** and nothing else. -/
theorem snd_foldl_apply (s : Sample) (r : Recorder) (events : List Watch) :
    (events.foldl Watch.apply (s, r)).2 =
      ((calls s events).map Call.entry).foldl Recorder.record r := by
  induction events generalizing s r with
  | nil => rfl
  | cons event rest ih =>
    cases event with
    | change s => exact ih s r
    | call opcode mnemonic note => exact ih s _

/-- The end of an end. -/
theorem rtake_rtake (l : List Entry) (m n : Nat) : (l.rtake m).rtake n = l.rtake (min m n) := by
  simp only [List.rtake_eq_reverse_take_reverse, List.reverse_reverse, List.take_take, Nat.min_comm]

namespace Recorder

variable {capacity : Nat}

/-- What a recorder holds that was empty before. -/
theorem recent_recorded (h : 0 < capacity) (es : List Entry) :
    (es.foldl record (empty capacity h)).recent = es.rtake capacity :=
  (recent_foldl_record _ es).2

/-- How many. -/
theorem size_recorded (h : 0 < capacity) (es : List Entry) :
    (es.foldl record (empty capacity h)).size = min es.length capacity := by
  rw [← length_recent, recent_recorded, List.rtake, List.length_drop]
  omega

/-- **What a request gets.** -/
theorem entries_recorded (h : 0 < capacity) (es : List Entry) (limit : Option Int) :
    (es.foldl record (empty capacity h)).entries limit =
      es.rtake (kept es.length capacity limit) := by
  rw [entries_eq, recent_recorded, rtake_rtake]
  congr 1
  cases limit with
  | none =>
    rw [count, size_recorded, kept]
    omega
  | some limit =>
    rw [count, size_recorded, kept]
    omega

/-- **The last entry** is that of the last call. -/
theorem last?_recorded (h : 0 < capacity) (es : List Entry) :
    (es.foldl record (empty capacity h)).last? = es.getLast? := by
  rw [last?, size_recorded]
  split
  · have hnone : es = [] := List.length_eq_zero_iff.mp (by omega)
    rw [hnone]
    rfl
  · rw [before?_eq Nat.one_pos (by rw [size_recorded]; omega), recent_recorded, size_recorded,
      List.rtake, List.getElem?_drop, List.getLast?_eq_getElem?]
    congr 1
    omega

end Recorder

/-- **A recorder keeps the last calls.**  Give a new recorder any calls, while the processor that it
    watches goes on changing.  It holds as many entries as there were calls, up to its capacity; the
    last one is that of the last call.  A request for entries, with any limit or without one, gets the
    end of the list of calls, the oldest first: each entry shows the values at its own call, modulo 256,
    and there is one line for each of them.

    A capacity that is not positive is refused; for another one a new recorder is made, unless that many
    entries cannot be stored. -/
theorem recorder_keeps_last_calls (capacity : Nat) (h : 0 < capacity) (s : Sample)
    (events : List Watch) :
    let r := (events.foldl Watch.apply (s, Recorder.empty capacity h)).2
    let made := calls s events
    r.size = min made.length capacity ∧
      r.last? = made.getLast?.map Call.entry ∧ (r.last? = none ↔ made.length = 0) ∧
      (∀ limit, List.Forall₂ Call.Shown (made.rtake (kept made.length capacity limit))
          (r.entries limit) ∧
        r.lines limit = (made.rtake (kept made.length capacity limit)).map (·.entry.line)) ∧
      ∀ asked : Int, (asked ≤ 0 → Recorder.create asked = .error .notPositive) ∧
        ∀ created, Recorder.create asked = .ok created ↔
          asked ≤ Recorder.storageLimit ∧ ∃ hpos, created = Recorder.empty asked.toNat hpos := by
  intro r made
  have hr : r = (made.map Call.entry).foldl Recorder.record (.empty capacity h) :=
    snd_foldl_apply s _ events
  have hlast : r.last? = made.getLast?.map Call.entry := by
    rw [hr, Recorder.last?_recorded, List.getLast?_map]
  have hentries (limit : Option Int) :
      r.entries limit = (made.rtake (kept made.length capacity limit)).map Call.entry := by
    rw [hr, Recorder.entries_recorded, List.length_map, List.rtake, List.rtake, List.length_map,
      List.map_drop]
  refine ⟨?_, hlast, ?_, fun limit => ⟨?_, ?_⟩, fun asked => ⟨?_, fun created => ?_⟩⟩
  · rw [hr, Recorder.size_recorded, List.length_map]
  · rw [hlast, Option.map_eq_none_iff, List.getLast?_eq_none_iff, List.length_eq_zero_iff]
  · rw [hentries, List.forall₂_map_right_iff, List.forall₂_same]
    exact fun c _ => c.shown_entry
  · rw [Recorder.lines, hentries, List.map_map]
    rfl
  · intro hle
    rw [Recorder.create, dif_neg (by omega)]
  · exact Recorder.create_eq_ok_iff

/-- Four calls of a recorder for three, with numbers that are no bytes. -/
theorem recorder_keeps_last_calls_of_wrap :
    let first : Sample := ⟨0, [1, 2], none, true, false⟩
    let second : Sample := ⟨259, [-1, 512], some true, false, false⟩
    let third : Sample := ⟨-2, [7, 8], some false, true, true⟩
    let events : List Watch := [.call (some 0x82) "LDI" "", .call (some 0) "NOP" "", .change second,
      .call none "" "irq0", .change third, .call (some (-255)) "HLT" "fault", .change first]
    let r := (events.foldl Watch.apply (first, .empty 3 (by decide))).2
    0 < 3 ∧ r.size = 3 ∧
      r.last? = some ⟨254, some 1, "HLT", [7, 8], some false, true, true, "fault"⟩ ∧
      r.lines (some 2) = ["pc=03 opcode=-- ?    R0=FF R1=00 EQ=E flags=DI,irq0",
        "pc=FE opcode=01 HLT  R0=07 R1=08 EQ=e flags=HALT,fault"] ∧
      (r.lines none).length = 3 ∧ r.lines (some (-1)) = [] := by
  intro first second third events r
  obtain ⟨hsize, hlast, _, hrequests, _⟩ := recorder_keeps_last_calls 3 (by decide) first events
  refine ⟨by decide, hsize, hlast, (hrequests (some 2)).2.trans (by decide +kernel), ?_, ?_⟩
  · rw [(hrequests none).2, List.length_map]
    rfl
  · exact (hrequests (some (-1))).2

end Ls8.Trace
