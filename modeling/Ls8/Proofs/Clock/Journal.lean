import Ls8.Proofs.Clock.Firings

/-
  The journal of a run: everything that happened on a clock, in order.

  A log notes the firings only; a journal also notes which sources were added, what the host slept
  and what it was told, each with the world at that moment.  Like a log it is a piece of ghost state
  beside the world that no routine sees (`Host.journaled`), so that keeping one changes nothing
  (`projects_performJournaled`).

  Two things are read off a journal: the sources that have been added since the clock was last
  stopped (`Journal.sources`), and the firings with their times (`Journal.firings`).
-/

namespace Ls8.Clock

variable {τ κ ω ε : Type}

/-- Something that happens on a clock, with the world as it is then. -/
inductive Happening (τ κ ω : Type) where
  /-- A source has been added. -/
  | added (source : Source τ κ) (world : ω)
  /-- A command is about to be run. -/
  | fired (command : κ) (world : ω)
  /-- The host is about to sleep for so long. -/
  | slept (duration : τ) (world : ω)
  /-- The host is told something. -/
  | told (notice : Notice) (world : ω)

/-- Whether the clock was stopped. -/
def Happening.isStop : Happening τ κ ω → Bool
  | .told (.stopped _) _ => true
  | _ => false

/-- Whether the host was at work: in a firing or a sleep. -/
def Happening.isActive : Happening τ κ ω → Bool
  | .fired _ _ | .slept _ _ => true
  | _ => false

/-- What happened, the earliest first. -/
abbrev Journal (τ κ ω : Type) := List (Happening τ κ ω)

/-- A journal beside a world. -/
abbrev Journaled (τ κ ω : Type) := Journal τ κ ω × ω

/-- A world whose journal has one more entry, about that world. -/
def note (happening : ω → Happening τ κ ω) (s : Journaled τ κ ω) : Journaled τ κ ω :=
  (s.1 ++ [happening s.2], s.2)

/-- **A routine that notes every source** that it has added. -/
def Routine.journaled : Routine τ κ ω ε → Routine τ κ (Journaled τ κ ω) ε
  | .done => .done
  | .fail reason => .fail reason
  | .read next => .read fun s => (next s.2).journaled
  | .write w next => .read fun s => .write (s.1, w) next.journaled
  | .add source next =>
    .add source (.read fun s => .write (note (.added source) s) next.journaled)
  | .runPending next => .runPending fun n => (next n).journaled
  | .start next => .start next.journaled
  | .stop next => .stop next.journaled
  | .attempt part catches next => .attempt part.journaled catches fun caught => (next caught).journaled

/-- **A host that keeps a journal.** -/
def Host.journaled (host : Host τ κ ω ε) : Host τ κ (Journaled τ κ ω) ε where
  now s := host.now s.2
  fire k := .read fun s => .write (note (.fired k) s) (host.fire k).journaled
  sleep d := .read fun s => .write (note (.slept d) s) (host.sleep d).journaled
  told n s := ((note (.told n) s).1, host.told n s.2)

theorem journaled_beside (host : Host τ κ ω ε) : host.journaled.Beside host :=
  ⟨fun _ => rfl, fun _ _ => rfl⟩

/-! ## Reading a journal -/

namespace Journal

/-- The sources that have been added since the last stop, after one more happening. -/
def sourcesAfter (sources : List (Source τ κ)) : Happening τ κ ω → List (Source τ κ)
  | .added source _ => sources ++ [source]
  | .told (.stopped _) _ => []
  | _ => sources

/-- **The sources that have been added since the last stop,** the first one first. -/
def sources (journal : Journal τ κ ω) : List (Source τ κ) := journal.foldl sourcesAfter []

theorem sources_snoc (journal : Journal τ κ ω) (h : Happening τ κ ω) :
    sources (journal ++ [h]) = sourcesAfter (sources journal) h := by
  simp [sources]

/-- As long as nothing is added after a stop, there are no sources. -/
theorem sources_of_stopped {journal after : Journal τ κ ω} {n : Nat} {w : ω}
    (hafter : ∀ source v, .added source v ∉ after) :
    sources (journal ++ .told (.stopped n) w :: after) = [] := by
  have hkept : after.foldl sourcesAfter [] = [] := by
    induction after with
    | nil => rfl
    | cons h rest ih =>
      have hrest := ih fun source v hmem => hafter source v (List.mem_cons_of_mem h hmem)
      cases h with
      | added source v => exact absurd List.mem_cons_self (hafter source v)
      | told notice v => cases notice <;> exact hrest
      | fired | slept => exact hrest
  rw [sources, List.foldl_append, List.foldl_cons]
  exact hkept

/-- The command that was fired, and the time of its firing. -/
def firing? (now : ω → τ) : Happening τ κ ω → Option (κ × τ)
  | .fired k w => some (k, now w)
  | _ => none

/-- **The firings,** each with its time. -/
def firings (now : ω → τ) (journal : Journal τ κ ω) : List (κ × τ) :=
  journal.filterMap (firing? now)

theorem firings_snoc (now : ω → τ) (journal : Journal τ κ ω) (h : Happening τ κ ω) :
    firings now (journal ++ [h]) = firings now journal ++ (firing? now h).toList := by
  rw [firings, List.filterMap_append, firings]
  cases hfiring : firing? now h <;> simp [hfiring]

/-- What was neither a firing nor a sleep leaves the firings. -/
theorem firings_snoc_of_idle {now : ω → τ} {journal : Journal τ κ ω} {h : Happening τ κ ω}
    (hidle : h.isActive = false) : firings now (journal ++ [h]) = firings now journal := by
  rw [firings_snoc]
  cases h with
  | fired | slept => cases hidle
  | added | told => exact List.append_nil _

/-- What stands in a list with one more entry: the new entry at its end, or an entry before. -/
theorem eq_or_of_snoc {α : Type} {journal before after : List α} {h h' : α}
    (heq : journal ++ [h] = before ++ h' :: after) :
    (before = journal ∧ h' = h ∧ after = []) ∨
      ∃ rest, after = rest ++ [h] ∧ journal = before ++ h' :: rest := by
  rcases List.eq_nil_or_concat after with rfl | ⟨rest, last, rfl⟩
  · obtain ⟨hbefore, hlast⟩ := List.append_inj' heq rfl
    obtain ⟨hsame, _⟩ := List.cons.inj hlast
    exact .inl ⟨hbefore.symm, hsame.symm, rfl⟩
  · rw [List.concat_eq_append] at heq ⊢
    rw [← List.cons_append, ← List.append_assoc] at heq
    obtain ⟨hjournal, hlast⟩ := List.append_inj' heq rfl
    obtain ⟨hsame, _⟩ := List.cons.inj hlast
    exact .inr ⟨rest, by rw [hsame], hjournal⟩

end Journal

/-! ## Keeping a journal changes nothing -/

section Projections
variable {host : Host τ κ ω ε}
variable {pending : Work τ κ ω ε Nat} {pending' : Work τ κ (Journaled τ κ ω) ε Nat}
variable {started : Work τ κ ω ε Unit} {started' : Work τ κ (Journaled τ κ ω) ε Unit}
variable [Add τ] [Zero τ] [LE τ] [LT τ] [DecidableLE τ] [DecidableLT τ]

/-- A routine that keeps a journal projects to the routine itself. -/
theorem projects_journaled (hpending : Projects Prod.snd pending' pending)
    (hstarted : Projects Prod.snd started' started) (r : Routine τ κ ω ε) :
    Projects Prod.snd (r.journaled.run host.journaled pending' started') (r.run host pending started) := by
  induction r with
  | done => exact fun s => rfl
  | fail reason => exact fun s => rfl
  | read next ih => exact fun s => ih s.2.2 s
  | write w next ih => exact fun s => ih (s.1, (s.2.1, w))
  | add source next ih =>
    rintro ⟨c, journal, w⟩
    show projectedResult Prod.snd
        ((Routine.add source _).run host.journaled pending' started' (c, (journal, w))) =
      (Routine.add source next).run host pending started (c, w)
    cases hadd : c.add (host.now w) source with
    | ok d =>
      have hadd' : c.add (host.journaled.now (journal, w)) source = .ok d := hadd
      rw [run_add_of_ok hadd, run_add_of_ok hadd']
      exact ih (d, note (.added source) (journal, w))
    | error e =>
      have hadd' : c.add (host.journaled.now (journal, w)) source = .error e := hadd
      rw [run_add_of_error hadd, run_add_of_error hadd']
      rfl
  | runPending next ih => exact hpending.bind ih
  | start next ih => exact hstarted.bind fun _ => ih
  | stop next ih =>
    exact fun s => ih (s.1.stop, host.journaled.told (.stopped s.1.dispatched) s.2)
  | attempt part catches next ihpart ihnext => exact ihpart.attempted ihnext

/-- A host that keeps a journal projects to the host itself. -/
theorem journaled_projectsTo (host : Host τ κ ω ε) :
    host.journaled.ProjectsTo Prod.snd host where
  now := (journaled_beside host).now
  told := (journaled_beside host).told
  fire k _ _ _ _ hpending hstarted s :=
    projects_journaled hpending hstarted (host.fire k) (s.1, note (.fired k) s.2)
  sleep d _ _ _ _ hpending hstarted s :=
    projects_journaled hpending hstarted (host.sleep d) (s.1, note (.slept d) s.2)

variable [Sub τ]

/-- A routine performed by a host that keeps a journal. -/
def performJournaled (host : Host τ κ ω ε) (fuel : Nat) (routine : Routine τ κ ω ε) :
    Work τ κ (Journaled τ κ ω) ε Unit :=
  perform host.journaled fuel routine.journaled

/-- **Keeping a journal changes nothing:** but for the journal, the run ends as it does without. -/
theorem projects_performJournaled (host : Host τ κ ω ε) (fuel : Nat) (routine : Routine τ κ ω ε) :
    Projects Prod.snd (performJournaled host fuel routine) (perform host fuel routine) :=
  projects_perform (journaled_projectsTo host) fuel fun _ _ _ _ hpending hstarted =>
    projects_journaled hpending hstarted routine

end Projections

end Ls8.Clock
