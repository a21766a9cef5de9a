import Ls8.OpcodeTable
import Mathlib.Tactic.Push

/-
  The table of a list of instructions.

  1. **Room** (`Fits`).  A table has room for instructions if they have different opcodes and the table
     has none under any of these.  Afterwards it holds them, and besides them what it held before
     (`Holds`).

  2. **The crux** is that registering goes on exactly as long as there is room (`registerAll_cases`).
     When an instruction meets a slot that is taken, it makes no difference whether the holder came from
     the list or was there before: by then it stands in the table.  Where it came from is read off the
     table afterwards (`Holds.get_eq_some_iff`).

  3. **Freezing** copies the table, so a table that has been handed out stays as it is while more
     instructions are registered (`Workbench`).

  Main statement: `table_is_its_list`.
-/

namespace Ls8.OpcodeTable

variable {t t' : OpcodeTable} {is before after : List Instruction} {i holder : Instruction}

/-- A table is told by what stands under each opcode. -/
theorem ext_get (h : ∀ opcode, t.get opcode = t'.get opcode) : t = t' := by
  obtain ⟨slots⟩ := t
  obtain ⟨slots'⟩ := t'
  congr 1
  refine Vector.ext fun k hk => ?_
  have hget := h (UInt8.ofNat k)
  have hmod : k % 256 = k := Nat.mod_eq_of_lt hk
  simpa only [get, UInt8.toNat_ofNat', Nat.reducePow, hmod] using hget

/-- An instruction is refused exactly for the one that holds its slot. -/
theorem register_eq_error_iff {e : InstructionError} :
    t.register i = .error e ↔
      ∃ holder, t.get i.opcode = some holder ∧ e = .opcodeTaken i.opcode holder.mnemonic := by
  unfold register
  cases t.get i.opcode with
  | none => simp
  | some holder => simp [eq_comm]

/-! ## Room for instructions -/

/-- **A table has room for instructions:** they have different opcodes, and the table has none under
    any of these. -/
structure Fits (t : OpcodeTable) (is : List Instruction) : Prop where
  distinct : (is.map (·.opcode)).Nodup
  free : ∀ i ∈ is, t.get i.opcode = none

/-- **A table holds instructions besides what an older one held:** each of them stands under its
    opcode, and all other slots are as they were. -/
structure Holds (t : OpcodeTable) (is : List Instruction) (older : OpcodeTable) : Prop where
  found : ∀ i ∈ is, t.get i.opcode = some i
  kept : ∀ opcode, (∀ i ∈ is, i.opcode ≠ opcode) → t.get opcode = older.get opcode

theorem fits_nil (t : OpcodeTable) : t.Fits [] := ⟨List.nodup_nil, nofun⟩

theorem holds_nil (t : OpcodeTable) : t.Holds [] t := ⟨nofun, fun _ _ => rfl⟩

/-- The empty table has room for instructions exactly if they have different opcodes. -/
theorem fits_empty_iff : empty.Fits is ↔ (is.map (·.opcode)).Nodup :=
  ⟨Fits.distinct, fun h => ⟨h, fun _ _ => get_empty _⟩⟩

/-- There is room for an instruction and more, if the first is accepted and leaves room for the
    others. -/
theorem Fits.cons (h : t'.Fits is) (hi : t.register i = .ok t') : t.Fits (i :: is) := by
  have hfound : t'.get i.opcode = some i := by
    rw [get_register hi, if_pos rfl]
  have hother : ∀ j ∈ is, j.opcode ≠ i.opcode := by
    intro j hj hsame
    have hfree := h.free j hj
    rw [hsame, hfound] at hfree
    cases hfree
  constructor
  · rw [List.map_cons, List.nodup_cons]
    refine ⟨?_, h.distinct⟩
    intro hmem
    obtain ⟨j, hj, hsame⟩ := List.mem_map.mp hmem
    exact hother j hj hsame
  · intro j hj
    rcases List.mem_cons.mp hj with rfl | hj
    · exact register_isOk_iff.mp ⟨t', hi⟩
    · have hfree := h.free j hj
      rwa [get_register hi, if_neg (hother j hj)] at hfree

/-- Instructions are held together with one that was registered before them. -/
theorem Holds.cons {older : OpcodeTable} (h : t.Holds is t') (hfits : t'.Fits is)
    (hi : older.register i = .ok t') : t.Holds (i :: is) older := by
  have hfits' := hfits.cons hi
  constructor
  · intro j hj
    rcases List.mem_cons.mp hj with rfl | hj
    · have hother : ∀ k ∈ is, k.opcode ≠ j.opcode := by
        intro k hk hsame
        exact (List.nodup_cons.mp hfits'.distinct).1 (List.mem_map.mpr ⟨k, hk, hsame⟩)
      rw [h.kept _ hother, get_register hi, if_pos rfl]
    · exact h.found j hj
  · intro opcode hnone
    obtain ⟨hfirst, hrest⟩ := List.forall_mem_cons.mp hnone
    rw [h.kept opcode hrest, get_register hi, if_neg hfirst.symm]

/-- **What stands under an opcode** is one of the instructions, or was there before. -/
theorem Holds.get_eq_some_iff {older : OpcodeTable} (h : t.Holds is older) (hfits : older.Fits is)
    {opcode : UInt8} :
    t.get opcode = some i ↔ (i ∈ is ∧ i.opcode = opcode) ∨ older.get opcode = some i := by
  by_cases htaken : ∃ j ∈ is, j.opcode = opcode
  · obtain ⟨j, hj, rfl⟩ := htaken
    rw [h.found j hj, hfits.free j hj]
    constructor
    · rintro ⟨⟩
      exact .inl ⟨hj, rfl⟩
    · rintro (⟨hi, hsame⟩ | hnone)
      · rw [← h.found i hi, hsame, h.found j hj]
      · cases hnone
  · push Not at htaken
    rw [h.kept opcode htaken]
    constructor
    · exact .inr
    · rintro (⟨hi, hsame⟩ | hold)
      · exact absurd hsame (htaken i hi)
      · exact hold

/-- The order of instructions does not matter. -/
theorem Holds.perm {js : List Instruction} {u older : OpcodeTable} (h : t.Holds is older)
    (hu : u.Holds js older) (hfits : older.Fits is) (hperm : js.Perm is) : u = t := by
  have hfits' : older.Fits js :=
    ⟨(hperm.map _).nodup_iff.mpr hfits.distinct, fun i hi => hfits.free i (hperm.mem_iff.mp hi)⟩
  refine ext_get fun opcode => Option.ext fun i => ?_
  rw [hu.get_eq_some_iff hfits', h.get_eq_some_iff hfits, hperm.mem_iff]

/-! ## Registering a list -/

/-- **The first conflict** of a list with a table: there was room for the instructions before it, and
    with these its slot is taken. -/
structure Conflict (t : OpcodeTable) (is : List Instruction) (t' : OpcodeTable)
    (before : List Instruction) (i holder : Instruction) (after : List Instruction) : Prop where
  split : is = before ++ i :: after
  fits : t.Fits before
  holds : t'.Holds before t
  taken : t'.get i.opcode = some holder

/-- Registering one more instruction in front delays the conflict. -/
theorem Conflict.cons {u : OpcodeTable} {j : Instruction} (h : u.Conflict is t' before i holder after)
    (hj : t.register j = .ok u) : t.Conflict (j :: is) t' (j :: before) i holder after where
  split := by rw [h.split, List.cons_append]
  fits := h.fits.cons hj
  holds := h.holds.cons h.fits hj
  taken := h.taken

/-- The holder is an instruction before the conflict, or it was there before all of them. -/
theorem Conflict.holder_iff (h : t.Conflict is t' before i holder after) :
    (holder ∈ before ∧ holder.opcode = i.opcode) ∨ t.get i.opcode = some holder :=
  (h.holds.get_eq_some_iff h.fits).mp h.taken

/-- There is no room for a list with a conflict. -/
theorem Conflict.not_fits (h : t.Conflict is t' before i holder after) : ¬ t.Fits is := by
  intro hfits
  obtain rfl := h.split
  have hmem : i ∈ before ++ i :: after := List.mem_append_right _ List.mem_cons_self
  rcases h.holder_iff with ⟨hholder, hsame⟩ | hold
  · have hdistinct := hfits.distinct
    rw [List.map_append, List.nodup_append] at hdistinct
    exact hdistinct.2.2 _ (List.mem_map_of_mem hholder) _ (List.mem_map_of_mem List.mem_cons_self) hsame
  · rw [hfits.free i hmem] at hold
    cases hold

/-- **Registering a list** goes through as long as there is room, and ends at the first conflict. -/
theorem registerAll_cases (is : List Instruction) (t : OpcodeTable) :
    (∃ t', registerAll is t = (t', none) ∧ t.Fits is ∧ t'.Holds is t) ∨
    ∃ t' before i holder after, t.Conflict is t' before i holder after ∧
      registerAll is t = (t', some (.opcodeTaken i.opcode holder.mnemonic)) := by
  induction is generalizing t with
  | nil => exact .inl ⟨t, rfl, fits_nil t, holds_nil t⟩
  | cons j is ih =>
    rw [registerAll, addAll]
    cases hj : t.register j with
    | error e =>
      obtain ⟨holder, htaken, rfl⟩ := register_eq_error_iff.mp hj
      exact .inr ⟨t, [], j, holder, is, ⟨rfl, fits_nil t, holds_nil t, htaken⟩, rfl⟩
    | ok u =>
      rcases ih u with ⟨t', hall, hfits, hholds⟩ | ⟨t', before, i, holder, after, hconflict, hended⟩
      · exact .inl ⟨t', hall, hfits.cons hj, hholds.cons hfits hj⟩
      · exact .inr ⟨t', j :: before, i, holder, after, hconflict.cons hj, hended⟩

/-- What a list leaves for which there is room. -/
theorem exists_registerAll (h : t.Fits is) :
    ∃ t', registerAll is t = (t', none) ∧ t'.Holds is t := by
  rcases registerAll_cases is t with ⟨t', hall, _, hholds⟩ | ⟨t', _, _, _, _, hconflict, _⟩
  · exact ⟨t', hall, hholds⟩
  · exact absurd h hconflict.not_fits

/-- **A list is refused** at its first conflict. -/
theorem exists_conflict {e : InstructionError} (h : registerAll is t = (t', some e)) :
    ∃ before i holder after, t.Conflict is t' before i holder after ∧
      e = .opcodeTaken i.opcode holder.mnemonic := by
  rcases registerAll_cases is t with ⟨u, hall, _⟩ | ⟨u, before, i, holder, after, hconflict, hended⟩
  · rw [hall] at h
    cases h
  · rw [hended] at h
    cases h
    exact ⟨before, i, holder, after, hconflict, rfl⟩

/-- **A list is registered exactly if there is room for it.** -/
theorem registerAll_eq_none_iff : (registerAll is t).2 = none ↔ t.Fits is := by
  constructor
  · intro h
    rcases registerAll_cases is t with ⟨_, _, hfits, _⟩ | ⟨t', _, _, _, _, _, hended⟩
    · exact hfits
    · rw [hended] at h
      cases h
  · intro h
    obtain ⟨t', hall, _⟩ := exists_registerAll h
    rw [hall]

/-- A table is built by registering the whole list. -/
theorem build_eq_ok_iff : build is = .ok t ↔ registerAll is empty = (t, none) := by
  unfold build
  split <;> simp_all

theorem build_eq_error_iff {e : InstructionError} :
    build is = .error e ↔ ∃ t, registerAll is empty = (t, some e) := by
  unfold build
  split <;> simp_all

/-- **A table can be built exactly from instructions with different opcodes.** -/
theorem build_isOk_iff : (∃ t, build is = .ok t) ↔ (is.map (·.opcode)).Nodup := by
  rw [← fits_empty_iff, ← registerAll_eq_none_iff]
  constructor
  · rintro ⟨t, hbuilt⟩
    exact congrArg Prod.snd (build_eq_ok_iff.mp hbuilt)
  · intro hnone
    exact ⟨_, build_eq_ok_iff.mpr (Prod.ext rfl hnone)⟩

/-- A table that was built has room for its list, and holds it. -/
theorem holds_build (h : build is = .ok t) : empty.Fits is ∧ t.Holds is empty := by
  have hfits : empty.Fits is := fits_empty_iff.mpr (build_isOk_iff.mp ⟨t, h⟩)
  obtain ⟨u, hall, hholds⟩ := exists_registerAll hfits
  obtain ⟨rfl, -⟩ := Prod.mk.inj ((build_eq_ok_iff.mp h).symm.trans hall)
  exact ⟨hfits, hholds⟩

/-- **What stands in a table that was built** is its list. -/
theorem get_build (h : build is = .ok t) {opcode : UInt8} :
    t.get opcode = some i ↔ i ∈ is ∧ i.opcode = opcode := by
  obtain ⟨hfits, hholds⟩ := holds_build h
  rw [hholds.get_eq_some_iff hfits, get_empty]
  simp

/-- **Every order of a list gives the same table.** -/
theorem build_perm {js : List Instruction} (h : build is = .ok t) (hperm : js.Perm is) :
    build js = .ok t := by
  obtain ⟨hfits, hholds⟩ := holds_build h
  have hdistinct : (js.map (·.opcode)).Nodup := (hperm.map _).nodup_iff.mpr hfits.distinct
  obtain ⟨u, hbuilt⟩ := build_isOk_iff.mpr hdistinct
  obtain ⟨_, hholds'⟩ := holds_build hbuilt
  obtain rfl := hholds.perm hholds' hfits hperm
  exact hbuilt

/-- **A list with a repeated opcode is refused** for the first one that is repeated. -/
theorem exists_repeated_of_not_nodup (h : ¬ (is.map (·.opcode)).Nodup) :
    ∃ before i holder after, is = before ++ i :: after ∧ (before.map (·.opcode)).Nodup ∧
      holder ∈ before ∧ holder.opcode = i.opcode ∧
      build is = .error (.opcodeTaken i.opcode holder.mnemonic) := by
  rcases registerAll_cases is empty with ⟨_, _, hfits, _⟩ |
    ⟨t, before, i, holder, after, hconflict, hended⟩
  · exact absurd hfits.distinct h
  · have hbuilt := build_eq_error_iff.mpr ⟨t, hended⟩
    rcases hconflict.holder_iff with ⟨hholder, hsame⟩ | hold
    · exact ⟨before, i, holder, after, hconflict.split, hconflict.fits.distinct, hholder, hsame,
        hbuilt⟩
    · rw [get_empty] at hold
      cases hold

/-! ## A table under construction -/

/-- What is done with a table under construction. -/
inductive TableWork where
  | register (i : Instruction)
  | registerAll (is : List Instruction)
  /-- Hands out the table as it is. -/
  | freeze

/-- **A table under construction,** and the tables that have been handed out, the earliest first. -/
structure Workbench where
  table : OpcodeTable
  frozen : List OpcodeTable := []

/-- A single instruction that is refused leaves the table as it is; a list that is refused has been
    registered up to its conflict. -/
def Workbench.perform (w : Workbench) : TableWork → Workbench
  | .register i =>
    match w.table.register i with
    | .ok t => { w with table := t }
    | .error _ => w
  | .registerAll is => { w with table := (OpcodeTable.registerAll is w.table).1 }
  | .freeze => { w with frozen := w.frozen ++ [w.table] }

/-- **What has been handed out stays,** whatever is done afterwards. -/
theorem Workbench.exists_frozen (w : Workbench) (works : List TableWork) :
    ∃ more, (works.foldl perform w).frozen = w.frozen ++ more := by
  induction works generalizing w with
  | nil => exact ⟨[], (List.append_nil _).symm⟩
  | cons work works ih =>
    obtain ⟨more, hmore⟩ := ih (w.perform work)
    rw [List.foldl_cons, hmore]
    cases work with
    | register i =>
      refine ⟨more, ?_⟩
      rw [perform]
      split <;> rfl
    | registerAll is => exact ⟨more, rfl⟩
    | freeze => exact ⟨w.table :: more, List.append_assoc _ _ _⟩

/-- **A table that was handed out** is found in its place after any further work. -/
theorem Workbench.getElem?_frozen (w : Workbench) (later : List TableWork) :
    (later.foldl perform (w.perform .freeze)).frozen[w.frozen.length]? = some w.table := by
  obtain ⟨more, hmore⟩ := (w.perform .freeze).exists_frozen later
  rw [hmore]
  show ((w.frozen ++ [w.table]) ++ more)[w.frozen.length]? = some w.table
  rw [List.append_assoc, List.getElem?_append_right (Nat.le_refl _), Nat.sub_self]
  rfl

/-! ## The main statement -/

/-- **A table is exactly its list.**

    1. A table can be built from instructions exactly if they have different opcodes.  It has 256 slots;
       under each opcode stands the instruction of the list that has it, if there is one, and else
       nothing.  So every order of the list gives the same table.
    2. If two share an opcode the list is refused, and the error names the first opcode that is repeated
       and the instruction that had it earlier, in its text as well.
    3. A table in any state takes a list exactly if it has room for it.  If it refuses the list, the
       instructions before the first conflict stand in it, and all that it held before still does.
    4. A table that was handed out is the table at that moment, whatever is registered later. -/
theorem table_is_its_list (is : List Instruction) :
    (((∃ t, build is = .ok t) ↔ (is.map (·.opcode)).Nodup) ∧
      ∀ t, build is = .ok t → t.slots.toList.length = 256 ∧
        (∀ opcode i, t.get opcode = some i ↔ i ∈ is ∧ i.opcode = opcode) ∧
        ∀ js, js.Perm is → build js = .ok t) ∧
    (¬ (is.map (·.opcode)).Nodup →
      ∃ before i holder after, is = before ++ i :: after ∧ (before.map (·.opcode)).Nodup ∧
        holder ∈ before ∧ holder.opcode = i.opcode ∧ ∃ e, build is = .error e ∧
        e = .opcodeTaken i.opcode holder.mnemonic ∧
        e.message = "opcode " ++ Text.address i.opcode.toNat ++ " already registered as " ++
          holder.mnemonic) ∧
    (∀ t, ((registerAll is t).2 = none ↔ t.Fits is) ∧
      ((registerAll is t).2 = none → (registerAll is t).1.Holds is t) ∧
      ∀ e, (registerAll is t).2 = some e → ∃ before i holder after,
        t.Conflict is (registerAll is t).1 before i holder after ∧
        e = .opcodeTaken i.opcode holder.mnemonic ∧
        ∀ opcode old, t.get opcode = some old → (registerAll is t).1.get opcode = some old) ∧
    ∀ (w : Workbench) (earlier later : List TableWork),
      let now := earlier.foldl Workbench.perform w
      ((earlier ++ .freeze :: later).foldl Workbench.perform w).frozen[now.frozen.length]? =
        some now.table := by
  refine ⟨⟨build_isOk_iff, fun t hbuilt => ?_⟩, ?_, fun t => ?_, fun w earlier later => ?_⟩
  · exact ⟨Vector.length_toList, fun opcode i => get_build hbuilt,
      fun js hperm => build_perm hbuilt hperm⟩
  · intro hrepeated
    obtain ⟨before, i, holder, after, hsplit, hdistinct, hholder, hsame, hbuilt⟩ :=
      exists_repeated_of_not_nodup hrepeated
    exact ⟨before, i, holder, after, hsplit, hdistinct, hholder, hsame, _, hbuilt, rfl, rfl⟩
  · refine ⟨registerAll_eq_none_iff, ?_, ?_⟩
    · intro hnone
      obtain ⟨u, hall, hholds⟩ := exists_registerAll (registerAll_eq_none_iff.mp hnone)
      rwa [hall]
    · intro e hrefused
      obtain ⟨before, i, holder, after, hconflict, he⟩ := exists_conflict (Prod.ext rfl hrefused)
      refine ⟨before, i, holder, after, hconflict, he, fun opcode old hold => ?_⟩
      exact (hconflict.holds.get_eq_some_iff hconflict.fits).mpr (.inr hold)
  · rw [List.foldl_append, List.foldl_cons]
    exact (earlier.foldl Workbench.perform w).getElem?_frozen later

/-- Three instructions of which the last repeats the opcode of the second, for a table that holds one
    already. -/
theorem table_is_its_list_of_repeated_opcode :
    let first := Instruction.single 0x01 "ONE" .nop false
    let second := Instruction.unary 0x10 "TEN" .prn false
    let again := Instruction.binary 0x10 "ADD" .add
    let held := (registerAll [again] empty).1
    ([first, second].map (·.opcode)).Nodup ∧ (∃ t, build [first, second] = .ok t ∧
      build [second, first] = .ok t ∧ t.get 0x10 = some second ∧ t.get 0x11 = none) ∧
    ¬ ([first, second, again].map (·.opcode)).Nodup ∧
    (∃ before i holder after, [first, second, again] = before ++ i :: after ∧ holder ∈ before ∧
      holder.opcode = i.opcode ∧
      build [first, second, again] = .error (.opcodeTaken i.opcode holder.mnemonic)) ∧
    build [first, second, again] = .error (.opcodeTaken 0x10 "TEN") ∧
    (registerAll [first, second] held).2 = some (.opcodeTaken 0x10 "ADD") ∧
    (registerAll [first, second] held).1.get 0x01 = some first ∧
    (registerAll [first, second] held).1.get 0x10 = some again := by
  intro first second again held
  have hdistinct : ([first, second].map (·.opcode)).Nodup := by decide
  have hrepeated : ¬ ([first, second, again].map (·.opcode)).Nodup := by decide
  have hnone : ∀ i ∈ [first, second], i.opcode ≠ 0x11 := by decide
  have hrefused : (registerAll [first, second] held).2 = some (.opcodeTaken 0x10 "ADD") := by
    decide +kernel
  have hheld : held.get 0x10 = some again := by decide +kernel
  obtain ⟨⟨hbuilds, hbuilt⟩, _, hany, _⟩ := table_is_its_list [first, second]
  obtain ⟨_, hrepeat, _⟩ := table_is_its_list [first, second, again]
  refine ⟨hdistinct, ?_, hrepeated, ?_, ?_, hrefused, by decide +kernel, ?_⟩
  · obtain ⟨t, ht⟩ := hbuilds.mpr hdistinct
    obtain ⟨_, hget, hperm⟩ := hbuilt t ht
    refine ⟨t, ht, hperm _ (.swap _ _ _), (hget _ _).mpr ⟨by decide, rfl⟩, ?_⟩
    refine Option.eq_none_iff_forall_ne_some.mpr fun i hi => ?_
    obtain ⟨hmem, hopcode⟩ := (hget _ _).mp hi
    exact hnone i hmem hopcode
  · obtain ⟨before, i, holder, after, hsplit, _, hmem, hsame, e, hended, rfl, _⟩ := hrepeat hrepeated
    exact ⟨before, i, holder, after, hsplit, hmem, hsame, hended⟩
  · exact build_eq_error_iff.mpr ⟨_, Prod.ext rfl (by decide +kernel)⟩
  · obtain ⟨_, _, hconflict⟩ := hany held
    obtain ⟨_, _, _, _, _, _, hkept⟩ := hconflict _ hrefused
    exact hkept _ _ hheld

end Ls8.OpcodeTable
