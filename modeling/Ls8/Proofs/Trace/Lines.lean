import Ls8.Proofs.Trace.Calls
import Ls8.Proofs.TraceHistory

/-
  A line of a trace tells all that its entry holds.

  1. **Reading** (`split_chars`).  A line is split at its spaces.  Then it begins with the program
     counter, the opcode and the name, as many empty parts follow as the name was short of four
     characters, and it ends with the comparison and the remarks.  What is left in between are the
     registers.

  2. **The crux** is that the parts between are of two kinds and that neither of them has a mark of its
     own.  The number of empty parts is known from the name, which comes before them, and whatever comes
     after that and before the last two parts is a register (`eq_of_parts`).

  3. **Remarks** share one field with the dash that stands for none of them.  A note is told from the
     other remarks and from the dash because it is none of these texts (`remarks_of_field`).

  4. **Ticks** record nothing but legible entries, if the names of the instructions are legible
     (`legible_of_mem_entries`).

  Main statement: `lines_are_lossless`.
-/

namespace Ls8.Trace

/-- **The notes of a processor.** -/
def notes : List String :=
  ["", "irq0", "irq1", "irq2", "irq3", "irq4", "irq5", "irq6", "irq7", "fault"]

/-- A name that can be read back: it has no space, and is not the sign for a missing name. -/
def LegibleName (name : String) : Prop := ' ' ∉ name.toList ∧ name ≠ "?"

instance (name : String) : Decidable (LegibleName name) := instDecidableAnd

/-- **An entry whose line can be read back:** so can its name, and its note is one of a processor. -/
structure Entry.Legible (e : Entry) : Prop where
  name : LegibleName e.mnemonic
  note : e.note ∈ notes

/-- A note has neither spaces nor commas, and is no other remark. -/
theorem note_spec {n : String} (h : n ∈ notes) :
    (' ' ∉ n.toList ∧ ',' ∉ n.toList) ∧
      n.toList ≠ ['-'] ∧ n.toList ≠ "DI".toList ∧ n.toList ≠ "HALT".toList := by
  revert n
  decide +kernel

namespace Entry

variable {e e' : Entry}

/-! ## Parts without spaces -/

theorem space_ne_digitChar {upper : Bool} {d : Nat} (h : d < 16) : ' ' ≠ Text.digitChar upper d := by
  have hall : ∀ (u : Bool) (k : Fin 16), ' ' ≠ Text.digitChar u k := by decide
  exact hall upper ⟨d, h⟩

theorem space_notMem_byteUpper (b : UInt8) : ' ' ∉ Text.byteUpper b := by
  have hb := b.toNat_lt
  intro h
  rcases List.mem_cons.mp h with hhigh | hlow
  · exact space_ne_digitChar (by omega) hhigh
  · exact space_ne_digitChar (by omega) (List.mem_singleton.mp hlow)

theorem space_notMem_decimalDigits (n : Nat) : ' ' ∉ Text.decimalDigits n := by
  intro h
  obtain ⟨d, hd, hspace⟩ := Text.exists_digit_of_mem (by decide) h
  exact space_ne_digitChar (by omega) hspace

theorem space_notMem_opcodeField (opcode : Option UInt8) : ' ' ∉ opcodeField opcode := by
  cases opcode with
  | none => decide
  | some b => exact space_notMem_byteUpper b

theorem space_notMem_registerFields {index : Nat} {bs : List UInt8} :
    ∀ part ∈ registerFields index bs, ' ' ∉ part := by
  induction bs generalizing index with
  | nil => exact nofun
  | cons b bs ih =>
    intro part hpart
    rcases List.mem_cons.mp hpart with rfl | hpart
    · simp [space_notMem_decimalDigits, space_notMem_byteUpper]
    · exact ih part hpart

/-! ## Remarks -/

/-- **The remarks of an entry,** one by one. -/
theorem mem_remarks {part : List Char} :
    part ∈ e.remarks ↔ (e.interruptsEnabled = false ∧ part = "DI".toList) ∨
      (e.halted = true ∧ part = "HALT".toList) ∨ (e.note ≠ "" ∧ part = e.note.toList) := by
  unfold remarks
  cases e.interruptsEnabled <;> cases e.halted <;> by_cases hnote : e.note = "" <;> simp [hnote]

theorem di_mem_remarks (h : e.note ∈ notes) :
    "DI".toList ∈ e.remarks ↔ e.interruptsEnabled = false := by
  obtain ⟨_, _, hdi, _⟩ := note_spec h
  rw [mem_remarks]
  constructor
  · rintro (⟨hoff, _⟩ | ⟨_, hhalt⟩ | ⟨_, hnote⟩)
    · exact hoff
    · exact absurd hhalt (by decide)
    · exact absurd hnote.symm hdi
  · exact fun hoff => .inl ⟨hoff, rfl⟩

theorem halt_mem_remarks (h : e.note ∈ notes) : "HALT".toList ∈ e.remarks ↔ e.halted = true := by
  obtain ⟨_, _, _, hhalt⟩ := note_spec h
  rw [mem_remarks]
  constructor
  · rintro (⟨_, hdi⟩ | ⟨hhalted, _⟩ | ⟨_, hnote⟩)
    · exact absurd hdi (by decide)
    · exact hhalted
    · exact absurd hnote.symm hhalt
  · exact fun hhalted => .inr (.inl ⟨hhalted, rfl⟩)

/-- The dash is no remark. -/
theorem dash_notMem_remarks (h : e.note ∈ notes) : ['-'] ∉ e.remarks := by
  obtain ⟨_, hdash, _, _⟩ := note_spec h
  rw [mem_remarks]
  rintro (⟨_, hdi⟩ | ⟨_, hhalt⟩ | ⟨_, hnote⟩)
  · exact absurd hdi (by decide)
  · exact absurd hhalt (by decide)
  · exact hdash hnote.symm

/-- Remarks have neither spaces nor commas. -/
theorem plain_of_mem_remarks (h : e.note ∈ notes) {part : List Char} (hpart : part ∈ e.remarks) :
    ' ' ∉ part ∧ ',' ∉ part := by
  obtain ⟨hplain, _⟩ := note_spec h
  rcases mem_remarks.mp hpart with ⟨_, rfl⟩ | ⟨_, rfl⟩ | ⟨_, rfl⟩
  · decide
  · decide
  · exact hplain

theorem space_notMem_remarksField (h : e.note ∈ notes) : ' ' ∉ e.remarksField := by
  rw [remarksField]
  split
  · decide
  · exact Text.not_mem_joined (by decide) fun part hpart => (plain_of_mem_remarks h hpart).1

/-- The field is split at its commas into the remarks, or it is a dash. -/
theorem split_remarksField (h : e.note ∈ notes) :
    Text.split ',' e.remarksField = if e.remarks = [] then [['-']] else e.remarks := by
  rw [remarksField]
  by_cases hempty : e.remarks = []
  · rw [hempty]
    rfl
  · rw [if_neg (by simpa using hempty), if_neg hempty]
    exact Text.split_joined hempty fun part hpart => (plain_of_mem_remarks h hpart).2

/-- **The remarks are read off their field.** -/
theorem remarks_of_field (h : e.note ∈ notes) (h' : e'.note ∈ notes)
    (hfield : e.remarksField = e'.remarksField) : e.remarks = e'.remarks := by
  have hsplit := (split_remarksField h).symm.trans
    ((congrArg (Text.split ',') hfield).trans (split_remarksField h'))
  split at hsplit <;> split at hsplit
  · next hempty hempty' => rw [hempty, hempty']
  · -- the dash stands for none of the remarks, so it is not one of them
    exact absurd (hsplit ▸ List.mem_singleton_self _) (dash_notMem_remarks h')
  · exact absurd (hsplit ▸ List.mem_singleton_self _) (dash_notMem_remarks h)
  · exact hsplit

/-- **What the remarks tell.** -/
theorem told_of_remarks (h : e.note ∈ notes) (h' : e'.note ∈ notes) (hsame : e.remarks = e'.remarks) :
    e.interruptsEnabled = e'.interruptsEnabled ∧ e.halted = e'.halted ∧ e.note = e'.note := by
  have henabled : e.interruptsEnabled = e'.interruptsEnabled := by
    have hiff := di_mem_remarks h
    rw [hsame, di_mem_remarks h'] at hiff
    rw [Bool.eq_iff_iff, ← Bool.not_eq_false, ← Bool.not_eq_false]
    exact not_congr hiff.symm
  have hhalted : e.halted = e'.halted := by
    have hiff := halt_mem_remarks h
    rw [hsame, halt_mem_remarks h'] at hiff
    exact Bool.eq_iff_iff.mpr hiff.symm
  refine ⟨henabled, hhalted, ?_⟩
  rw [remarks, remarks, henabled, hhalted] at hsame
  have hnote := List.append_cancel_left hsame
  by_cases hempty : e.note = "" <;> by_cases hempty' : e'.note = ""
  · rw [hempty, hempty']
  · simp [hempty, hempty'] at hnote
  · simp [hempty, hempty'] at hnote
  · simpa [hempty, hempty', String.toList_inj] using hnote

/-! ## Parts of a line -/

/-- What is shown for a name. -/
def shownName (name : String) : List Char := if name.isEmpty then ['?'] else name.toList

/-- What is shown for the registers; the text without registers is one empty part. -/
def registerParts (bs : List UInt8) : List (List Char) :=
  if bs = [] then [[]] else registerFields 0 bs

/-- **The parts of a line.** -/
def parts (e : Entry) : List (List Char) :=
  ("pc=".toList ++ Text.byteUpper e.pc) :: ("opcode=".toList ++ opcodeField e.opcode) ::
    (shownName e.mnemonic :: List.replicate (4 - (shownName e.mnemonic).length) []) ++
    registerParts e.registers ++ ["EQ=".toList ++ [equalField e.equal]] ++
    ["flags=".toList ++ e.remarksField]

theorem space_notMem_shownName {name : String} (h : LegibleName name) : ' ' ∉ shownName name := by
  rw [shownName]
  split
  · decide
  · exact h.1

/-- A text with spaces behind it. -/
theorem split_append_replicate {cs : List Char} (h : ' ' ∉ cs) (n : Nat) :
    Text.split ' ' (cs ++ List.replicate n ' ') = cs :: List.replicate n [] := by
  induction n with
  | zero => rw [List.replicate_zero, List.append_nil, Text.split_of_not_mem h, List.replicate_zero]
  | succ n ih =>
    rw [List.replicate_succ', ← List.append_assoc, Text.split_append_cons, ih, List.replicate_succ']
    rfl

theorem split_registers (bs : List UInt8) :
    Text.split ' ' (Text.joined ' ' (registerFields 0 bs)) = registerParts bs := by
  cases bs with
  | nil => rfl
  | cons b bs =>
    exact Text.split_joined (List.cons_ne_nil _ _) space_notMem_registerFields

/-- **A line is split into its parts.** -/
theorem split_chars (h : e.Legible) : Text.split ' ' e.chars = e.parts := by
  have hchars : e.chars = ("pc=".toList ++ Text.byteUpper e.pc) ++ ' ' ::
      (("opcode=".toList ++ opcodeField e.opcode) ++ ' ' ::
      ((shownName e.mnemonic ++ List.replicate (4 - (shownName e.mnemonic).length) ' ') ++ ' ' ::
      (Text.joined ' ' (registerFields 0 e.registers) ++ ' ' ::
      (("EQ=".toList ++ [equalField e.equal]) ++ ' ' ::
      ("flags=".toList ++ e.remarksField))))) := by
    have hopcode : " opcode=".toList = ' ' :: "opcode=".toList := rfl
    have hequal : " EQ=".toList = ' ' :: "EQ=".toList := rfl
    have hremarks : " flags=".toList = ' ' :: "flags=".toList := rfl
    have hname : mnemonicField e.mnemonic = shownName e.mnemonic ++
      List.replicate (4 - (shownName e.mnemonic).length) ' ' := rfl
    unfold chars
    simp only [hopcode, hequal, hremarks, hname, List.append_assoc, List.cons_append]
  have hpc : ' ' ∉ "pc=".toList ++ Text.byteUpper e.pc := by
    simp [space_notMem_byteUpper]
  have hopcode : ' ' ∉ "opcode=".toList ++ opcodeField e.opcode := by
    simp [space_notMem_opcodeField]
  have hequal : ' ' ∉ "EQ=".toList ++ [equalField e.equal] := by
    cases e.equal with
    | none => decide
    | some b => cases b <;> decide
  have hremarks : ' ' ∉ "flags=".toList ++ e.remarksField := by
    simp [space_notMem_remarksField h.note]
  rw [hchars, Text.split_append_cons, Text.split_of_not_mem hpc, Text.split_append_cons,
    Text.split_of_not_mem hopcode, Text.split_append_cons,
    split_append_replicate (space_notMem_shownName h.name), Text.split_append_cons, split_registers,
    Text.split_append_cons, Text.split_of_not_mem hequal, Text.split_of_not_mem hremarks]
  simp [parts]

/-! ## Reading a line -/

/-- The opcode is read off its field. -/
theorem opcodeField_injective {a b : Option UInt8} (h : opcodeField a = opcodeField b) : a = b := by
  have hdash (b : UInt8) : ['-', '-'] ≠ Text.byteUpper b := by
    intro h
    have hfirst : ∀ d : Fin 16, '-' ≠ Text.digitChar true d := by decide
    have hb := b.toNat_lt
    exact hfirst ⟨b.toNat / 16, by omega⟩ (List.cons.inj h).1
  cases a with
  | none =>
    cases b with
    | none => rfl
    | some b => exact absurd h (hdash b)
  | some a =>
    cases b with
    | none => exact absurd h.symm (hdash a)
    | some b => exact congrArg some (Text.byteUpper_injective h)

/-- The name is read off what is shown for it. -/
theorem shownName_injective {n n' : String} (h : LegibleName n) (h' : LegibleName n')
    (hsame : shownName n = shownName n') : n = n' := by
  have hmark {n : String} (h : LegibleName n) : ['?'] ≠ n.toList := by
    intro hlist
    exact h.2 (String.toList_inj.mp hlist.symm)
  rw [shownName, shownName] at hsame
  split at hsame <;> split at hsame
  · next hempty hempty' => rw [String.isEmpty_iff.mp hempty, String.isEmpty_iff.mp hempty']
  · exact absurd hsame (hmark h')
  · exact absurd hsame.symm (hmark h)
  · exact String.toList_inj.mp hsame

theorem registerFields_injective {index : Nat} {bs bs' : List UInt8}
    (h : registerFields index bs = registerFields index bs') : bs = bs' := by
  induction bs generalizing index bs' with
  | nil =>
    cases bs' with
    | nil => rfl
    | cons b' bs' => cases h
  | cons b bs ih =>
    cases bs' with
    | nil => cases h
    | cons b' bs' =>
      obtain ⟨hfirst, hrest⟩ := List.cons.inj h
      have hdigits := (List.cons.inj (List.append_cancel_left hfirst)).2
      rw [Text.byteUpper_injective hdigits, ih hrest]

/-- The registers are read off their parts. -/
theorem registerParts_injective {bs bs' : List UInt8} (h : registerParts bs = registerParts bs') :
    bs = bs' := by
  cases bs with
  | nil =>
    cases bs' with
    | nil => rfl
    | cons b' bs' => cases h
  | cons b bs =>
    cases bs' with
    | nil => cases h
    | cons b' bs' => exact registerFields_injective h

theorem equalField_injective {a b : Option Bool} (h : equalField a = equalField b) : a = b := by
  rcases a with _ | _ | _ <;> rcases b with _ | _ | _
  all_goals
    first
    | rfl
    | exact absurd h (by decide)

/-- **The parts tell all that the entry holds.** -/
theorem eq_of_parts (h : e.Legible) (h' : e'.Legible) (hparts : e.parts = e'.parts) : e = e' := by
  obtain ⟨hfront, hremarks⟩ := List.append_inj' hparts rfl
  obtain ⟨hfront, hequal⟩ := List.append_inj' hfront rfl
  obtain ⟨hpc, hrest⟩ := List.cons.inj hfront
  obtain ⟨hopcode, hrest⟩ := List.cons.inj hrest
  obtain ⟨hname, hrest⟩ := List.cons.inj hrest
  -- the same name is followed by the same number of empty parts
  rw [hname] at hrest
  have hregisters := List.append_cancel_left hrest
  have hremarks := remarks_of_field h.note h'.note
    (List.append_cancel_left (List.cons.inj hremarks).1)
  obtain ⟨henabled, hhalted, hnote⟩ := told_of_remarks h.note h'.note hremarks
  have hpc := Text.byteUpper_injective (List.append_cancel_left hpc)
  have hopcode := opcodeField_injective (List.append_cancel_left hopcode)
  have hname := shownName_injective h.name h'.name hname
  have hregisters := registerParts_injective hregisters
  have hequal := List.append_cancel_left (List.cons.inj hequal).1
  have hequal := equalField_injective (List.cons.inj hequal).1
  cases e
  cases e'
  rw [Entry.mk.injEq]
  exact ⟨hpc, hopcode, hname, hregisters, hequal, henabled, hhalted, hnote⟩

/-- **A line tells its entry.** -/
theorem line_inj (h : e.Legible) (h' : e'.Legible) : e.line = e'.line ↔ e = e' := by
  constructor
  · intro hline
    have hchars : e.chars = e'.chars := String.ofList_injective hline
    apply eq_of_parts h h'
    rw [← split_chars h, ← split_chars h', hchars]
  · exact congrArg line

/-- **A list of lines tells its entries.** -/
theorem map_line_inj {es es' : List Entry} (h : ∀ e ∈ es, e.Legible) (h' : ∀ e ∈ es', e.Legible) :
    es.map line = es'.map line ↔ es = es' := by
  induction es generalizing es' with
  | nil =>
    rw [List.map_nil, eq_comm, List.map_eq_nil_iff, eq_comm]
  | cons e es ih =>
    cases es' with
    | nil => simp
    | cons e' es' =>
      obtain ⟨he, hes⟩ := List.forall_mem_cons.mp h
      obtain ⟨he', hes'⟩ := List.forall_mem_cons.mp h'
      rw [List.map_cons, List.map_cons, List.cons.injEq, List.cons.injEq, line_inj he he',
        ih hes hes']

end Entry

/-- A request gets none but the entries that a recorder holds. -/
theorem Recorder.mem_entries_none {r : Recorder} {limit : Option Int} {e : Entry}
    (h : e ∈ r.entries limit) : e ∈ r.entries none := by
  rw [entries_eq] at h
  rw [entries_none]
  exact List.mem_of_mem_drop h

end Ls8.Trace

namespace Ls8

variable {σ ε : Type}

/-! ## Ticks -/

/-- **A tick records legible entries,** if the names of its instructions are legible. -/
theorem Cpu.legible_of_mem_entries {outlet : Outlet σ ε} {c : Cpu} {host : σ}
    (h : ∀ opcode i, c.table.get opcode = some i → Trace.LegibleName i.mnemonic)
    {e : Trace.Entry} (he : e ∈ c.entries outlet host) : e.Legible := by
  have hnameless : Trace.LegibleName "" := by decide
  rw [Cpu.entries] at he
  split at he
  · exact absurd he List.not_mem_nil
  · rcases List.mem_append.mp he with hopening | hclosing
    · rw [Option.mem_toList, Cpu.opening?] at hopening
      split at hopening
      · next line _ =>
        have hline : ∀ k : Register, "irq" ++ Text.decimal (k : Nat) ∈ Trace.notes := by
          decide +kernel
        obtain rfl := Option.some.inj hopening
        exact ⟨hnameless, hline line⟩
      · obtain ⟨opcode, _, rfl⟩ := Option.map_eq_some_iff.mp hopening
        have hnote : "" ∈ Trace.notes := by decide
        refine ⟨?_, hnote⟩
        show Trace.LegibleName (((c.table.get opcode).map (·.mnemonic)).getD "")
        cases hi : c.table.get opcode with
        | none => exact hnameless
        | some i => exact h opcode i hi
    · rw [Option.mem_toList, Turn.closing?] at hclosing
      split at hclosing
      · cases hclosing
      · have hnote : "fault" ∈ Trace.notes := by decide
        obtain rfl := Option.some.inj hclosing
        exact ⟨hnameless, hnote⟩

/-! ## The main statement -/

namespace Trace

/-- **Lines are lossless.**

    1. Two calls of a recorder with any numbers, any registers and any opcode or none, with names that
       are empty or have no space and are not the question mark, and with notes of a processor, have the
       same line exactly if they have the same entry.
    2. So if recorders hold such entries only, the lines that they give on request tell all of the
       entries.
    3. A tick records such entries only, if the names of the instructions are such names. -/
theorem lines_are_lossless {σ ε : Type} :
    (∀ c d : Call, c.entry.Legible → d.entry.Legible →
      (c.entry.line = d.entry.line ↔ c.entry = d.entry)) ∧
    (∀ r r' : Recorder, (∀ e ∈ r.entries none, e.Legible) → (∀ e ∈ r'.entries none, e.Legible) →
      ∀ limit limit', r.lines limit = r'.lines limit' ↔ r.entries limit = r'.entries limit') ∧
    ∀ (outlet : Outlet σ ε) (c : Cpu) (host : σ),
      (∀ opcode i, c.table.get opcode = some i → LegibleName i.mnemonic) →
      ∀ e ∈ c.entries outlet host, e.Legible := by
  refine ⟨fun c d hc hd => Entry.line_inj hc hd, ?_, ?_⟩
  · intro r r' h h' limit limit'
    exact Entry.map_line_inj (fun e he => h e (Recorder.mem_entries_none he))
      (fun e he => h' e (Recorder.mem_entries_none he))
  · intro outlet c host hnames e he
    exact Cpu.legible_of_mem_entries hnames he

/-- A name that looks like a register, before no registers; a nameless entry with that register; and an
    entry of the same moment whose numbers differ by multiples of 256. -/
theorem lines_are_lossless_of_register_name :
    let named : Call := ⟨⟨3, [], some true, false, false⟩, none, "R0=00", "irq7"⟩
    let nameless : Call := ⟨⟨3, [0], some true, false, false⟩, none, "", "irq7"⟩
    let later : Call := ⟨⟨259, [-256], some true, false, false⟩, none, "", "irq7"⟩
    named.entry.Legible ∧ nameless.entry.Legible ∧ later.entry.Legible ∧
      named.entry.line = "pc=03 opcode=-- R0=00  EQ=E flags=DI,irq7" ∧
      nameless.entry.line = "pc=03 opcode=-- ?    R0=00 EQ=E flags=DI,irq7" ∧
      named.entry.line ≠ nameless.entry.line ∧ nameless.entry.line = later.entry.line := by
  intro named nameless later
  have hnamed : named.entry.Legible := ⟨by decide, by decide⟩
  have hnameless : nameless.entry.Legible := ⟨by decide, by decide⟩
  have hlater : later.entry.Legible := ⟨by decide, by decide⟩
  obtain ⟨hlines, _⟩ := @lines_are_lossless Unit String
  refine ⟨hnamed, hnameless, hlater, by decide +kernel, by decide +kernel, ?_, ?_⟩
  · intro hsame
    have hentry := (hlines named nameless hnamed hnameless).mp hsame
    exact absurd hentry (by decide)
  · exact (hlines nameless later hnameless hlater).mpr (by decide)

end Trace

end Ls8
