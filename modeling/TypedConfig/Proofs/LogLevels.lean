import Mathlib.Data.List.Infix
import Mathlib.Tactic.Common
import TypedConfig.Logging

/-!
# What is logged is what was set

The level of a target can be asked of the configuration and of the filter that is made of it.  The
filter goes by beginnings and the configuration does not, so they are compared on all targets and
after all changes (`LogFilter.wants_iff_after`).

**Beginnings.** The longest directive that a target begins with decides (`LogFilter.levelOf_cases`).
No phase has a target that begins with that of another, so for the filter of a configuration there
is at most one such directive (`Phase.eq_of_prefix`).

**Changes.** A `LogChange` sets one level.  What is set for a phase is what was set for it last, and
if there is nothing, what was set last for all (`LogConfig.phaseLevel_after`).
-/

namespace TypedConfig

/-! ## Changes -/

/-- Sets the level of all phases without one of their own, or that of one phase. -/
inductive LogChange where
  | all (l : LogLevel)
  | one (p : Phase) (l : LogLevel)
deriving DecidableEq, Repr

namespace LogChange

/-- The level that a change sets for all phases. -/
def global? : LogChange → Option LogLevel
  | all l => some l
  | one _ _ => none

/-- The level that a change sets for one phase alone. -/
def own? (p : Phase) : LogChange → Option LogLevel
  | all _ => none
  | one q l => if q = p then some l else none

/-- What was set last, going by what each change sets. -/
def last? (set? : LogChange → Option LogLevel) (changes : List LogChange) : Option LogLevel :=
  (changes.filterMap set?).getLast?

lemma last?_cons (set? : LogChange → Option LogLevel) (change : LogChange)
    (changes : List LogChange) :
    last? set? (change :: changes) = (last? set? changes).or (set? change) := by
  rw [last?, List.filterMap_cons]
  cases set? change with
  | none => rw [Option.or_none, last?]
  | some l =>
      rw [List.getLast?_cons, last?]
      cases (changes.filterMap set?).getLast? <;> rfl

end LogChange

namespace LogConfig

/-- The configuration after a change. -/
def change (c : LogConfig) : LogChange → LogConfig
  | .all l => { c with global := l }
  | .one p l => c.setPhase p l

/-- The configuration after changes. -/
def after (c : LogConfig) (changes : List LogChange) : LogConfig := changes.foldl change c

lemma global_change (c : LogConfig) (change : LogChange) :
    (c.change change).global = change.global?.getD c.global := by
  cases change with
  | all l => rfl
  | one p l => cases p <;> rfl

lemma own?_change (c : LogConfig) (change : LogChange) (p : Phase) :
    (c.change change).own? p = (change.own? p).or (c.own? p) := by
  cases change with
  | all l => cases p <;> rfl
  | one q l =>
      rw [LogConfig.change, own?_setPhase, LogChange.own?]
      split <;> rfl

lemma global_after (c : LogConfig) (changes : List LogChange) :
    (c.after changes).global = (LogChange.last? LogChange.global? changes).getD c.global := by
  induction changes generalizing c with
  | nil => rfl
  | cons change changes ih =>
      rw [after, List.foldl_cons, ← after, ih, global_change, LogChange.last?_cons]
      cases LogChange.last? LogChange.global? changes <;> rfl

lemma own?_after (c : LogConfig) (changes : List LogChange) (p : Phase) :
    (c.after changes).own? p = (LogChange.last? (LogChange.own? p) changes).or (c.own? p) := by
  induction changes generalizing c with
  | nil => rfl
  | cons change changes ih =>
      rw [after, List.foldl_cons, ← after, ih, own?_change, LogChange.last?_cons, Option.or_assoc]

/-- The level of a phase is what was set last for it, or else what was set last for all. -/
lemma phaseLevel_after (changes : List LogChange) (p : Phase) :
    (after {} changes).phaseLevel p =
      (LogChange.last? (LogChange.own? p) changes).getD (after {} changes).global := by
  have hnone : ({} : LogConfig).own? p = none := by cases p <;> rfl
  rw [phaseLevel, own?_after, hnone, Option.or_none]

end LogConfig

/-! ## Targets of phases -/

lemma LogLevel.eq_of_verbosity_eq {l k : LogLevel} (h : l.verbosity = k.verbosity) : l = k := by
  cases l <;> cases k <;> first | rfl | cases h

namespace Phase

lemma mem_all (p : Phase) : p ∈ all := by cases p <;> decide

/-- No target begins with those of two phases. -/
lemma eq_of_prefix {p q : Phase} {target : List Char} (hp : p.target.toList <+: target)
    (hq : q.target.toList <+: target) : p = q := by
  have hapart : ∀ p ∈ all, ∀ q ∈ all, p.target.toList <+: q.target.toList → p = q := by decide
  rcases List.prefix_or_prefix_of_prefix hp hq with h | h
  · exact hapart p p.mem_all q q.mem_all h
  · exact (hapart q q.mem_all p p.mem_all h).symm

lemma ofTarget?_target (p : Phase) : ofTarget? p.target = some p := by cases p <;> decide

lemma ofTarget?_eq_none {target : String} (h : ∀ p : Phase, target ≠ p.target) :
    ofTarget? target = none := by
  rw [ofTarget?, List.find?_eq_none]
  intro p _ htarget
  exact h p (of_decide_eq_true htarget).symm

end Phase

namespace LogConfig

lemma levelFor_target (c : LogConfig) (p : Phase) : c.levelFor p.target = c.phaseLevel p := by
  rw [levelFor, Phase.ofTarget?_target]

lemma levelFor_other (c : LogConfig) {target : String} (h : ∀ p : Phase, target ≠ p.target) :
    c.levelFor target = c.global := by
  rw [levelFor, Phase.ofTarget?_eq_none h]

end LogConfig

/-! ## The longest beginning -/

namespace LogFilter

/-- Of directives, a longest one is chosen. -/
lemma longest_of_foldl {ds : List (String × LogLevel)} {best : Option (String × LogLevel)}
    {d : String × LogLevel} (h : ds.foldl longer best = some d) :
    (best = some d ∨ d ∈ ds) ∧ ∀ e, best = some e ∨ e ∈ ds → e.1.length ≤ d.1.length := by
  induction ds generalizing best with
  | nil =>
      obtain rfl : best = some d := h
      refine ⟨Or.inl rfl, fun e he => ?_⟩
      rcases he with he | he
      · rw [Option.some.inj he]
      · cases he
  | cons x ds ih =>
      obtain ⟨hmem, hmax⟩ := ih h
      cases best with
      | none =>
          -- the first directive is the best so far
          refine ⟨Or.inr ?_, fun e he => hmax e ?_⟩
          · rcases hmem with hx | hd
            · exact Option.some.inj hx ▸ List.mem_cons_self
            · exact List.mem_cons_of_mem _ hd
          · rcases he with he | he
            · cases he
            · rcases List.mem_cons.mp he with rfl | he
              · exact Or.inl rfl
              · exact Or.inr he
      | some b =>
          simp only [longer] at hmem hmax
          grind

lemma foldl_longer_ne_none (ds : List (String × LogLevel)) (b : String × LogLevel) :
    ds.foldl longer (some b) ≠ none := by
  induction ds generalizing b with
  | nil => exact Option.some_ne_none b
  | cons d ds ih =>
      rw [List.foldl_cons, longer]
      split <;> exact ih _

/-- A longest directive that the target begins with decides, and if there is none, the level of all
other targets. -/
lemma levelOf_cases (f : LogFilter) (target : String) :
    (∃ d ∈ f.directives, d.1.toList <+: target.toList ∧ f.levelOf target = d.2 ∧
      ∀ e ∈ f.directives, e.1.toList <+: target.toList → e.1.length ≤ d.1.length) ∨
    (∀ d ∈ f.directives, ¬ d.1.toList <+: target.toList) ∧ f.levelOf target = f.fallback := by
  have hmem (d : String × LogLevel) : (d ∈ f.directives.filter fun d =>
      d.1.toList.isPrefixOf target.toList) ↔
        d ∈ f.directives ∧ d.1.toList <+: target.toList := by
    rw [List.mem_filter, List.isPrefixOf_iff_prefix]
  rw [levelOf]
  cases hbest : (f.directives.filter fun d => d.1.toList.isPrefixOf target.toList).foldl
      longer none with
  | none =>
      refine Or.inr ⟨fun d hd hbegins => ?_, rfl⟩
      obtain ⟨e, es, hes⟩ := List.exists_cons_of_ne_nil
        (List.ne_nil_of_mem ((hmem d).mpr ⟨hd, hbegins⟩))
      rw [hes] at hbest
      exact foldl_longer_ne_none es e hbest
  | some d =>
      obtain ⟨hd, hmax⟩ := longest_of_foldl hbest
      obtain ⟨hdirective, hbegins⟩ := (hmem d).mp (hd.resolve_left nofun)
      exact Or.inl ⟨d, hdirective, hbegins, rfl, fun e he hp =>
        hmax e (Or.inr ((hmem e).mpr ⟨he, hp⟩))⟩

/-! ## The filter of a configuration -/

lemma mem_directives {c : LogConfig} {d : String × LogLevel} :
    d ∈ (ofConfig c).directives ↔ ∃ p : Phase, d = (p.target, c.phaseLevel p) := by
  rw [ofConfig, List.mem_map]
  constructor
  · rintro ⟨p, -, rfl⟩
    exact ⟨p, by rw [c.levelFor_target p]⟩
  · rintro ⟨p, rfl⟩
    exact ⟨p, p.mem_all, by rw [c.levelFor_target p]⟩

lemma levelOf_phase (c : LogConfig) {p : Phase} {target : String}
    (h : p.target.toList <+: target.toList) : (ofConfig c).levelOf target = c.phaseLevel p := by
  rcases (ofConfig c).levelOf_cases target with ⟨d, hd, hbegins, hlevel, -⟩ | ⟨hnone, -⟩
  · obtain ⟨q, rfl⟩ := mem_directives.mp hd
    rw [hlevel, Phase.eq_of_prefix h hbegins]
  · exact absurd h (hnone _ (mem_directives.mpr ⟨p, rfl⟩))

lemma levelOf_other (c : LogConfig) {target : String}
    (h : ∀ p : Phase, ¬ p.target.toList <+: target.toList) :
    (ofConfig c).levelOf target = c.global := by
  rcases (ofConfig c).levelOf_cases target with ⟨d, hd, hbegins, -, -⟩ | ⟨-, hlevel⟩
  · obtain ⟨q, rfl⟩ := mem_directives.mp hd
    exact absurd hbegins (h q)
  · exact hlevel

/-- The filter and the configuration differ on no target but those that go on behind the target of a
phase, and there only if the phase has not the global level. -/
lemma levelOf_eq_levelFor_iff (c : LogConfig) (target : String) :
    (ofConfig c).levelOf target = c.levelFor target ↔
      ∀ p : Phase, p.target.toList <+: target.toList → target ≠ p.target →
        c.phaseLevel p = c.global := by
  by_cases hphase : ∃ p : Phase, p.target.toList <+: target.toList
  · obtain ⟨p, hp⟩ := hphase
    rw [levelOf_phase c hp]
    by_cases htarget : target = p.target
    · subst htarget
      refine ⟨fun _ q hq hne => ?_, fun _ => (c.levelFor_target p).symm⟩
      exact absurd (congrArg Phase.target (Phase.eq_of_prefix hp hq)) hne
    · have hother : ∀ q : Phase, target ≠ q.target := by
        rintro q rfl
        exact htarget (congrArg Phase.target (Phase.eq_of_prefix List.prefix_rfl hp))
      rw [c.levelFor_other hother]
      exact ⟨fun h q hq _ => Phase.eq_of_prefix hp hq ▸ h, fun h => h p hp htarget⟩
  · rw [not_exists] at hphase
    have hother : ∀ q : Phase, target ≠ q.target := by
      rintro q rfl
      exact hphase q List.prefix_rfl
    rw [levelOf_other c hphase, c.levelFor_other hother]
    exact ⟨fun _ p hp => absurd hp (hphase p), fun _ => rfl⟩

lemma wants_iff_le (f : LogFilter) (target : String) (l : LogLevel) :
    f.wants target l ↔ l.verbosity ≤ (f.levelOf target).verbosity :=
  decide_eq_true_iff

/-- A filter wants the same levels as another level does only if that is its own level. -/
lemma forall_wants_iff (f : LogFilter) (target : String) (k : LogLevel) :
    (∀ l, f.wants target l ↔ l.verbosity ≤ k.verbosity) ↔ f.levelOf target = k := by
  constructor
  · intro h
    refine LogLevel.eq_of_verbosity_eq (Nat.le_antisymm ?_ ?_)
    · exact (h _).mp ((f.wants_iff_le target _).mpr (Nat.le_refl _))
    · exact (f.wants_iff_le target k).mp ((h k).mpr (Nat.le_refl _))
  · rintro rfl l
    exact f.wants_iff_le target l

/-- Let levels have been set in any order, for all phases or for one.  An event is wanted under a
target that begins with that of a phase, of which there is one at most, if it is not more verbose
than the level of the phase, and under any other target if it is not more verbose than the global
level.  The filter goes by the level that the configuration gives for the whole target if and only
if the target does not go on behind that of a phase, or the phase has the global level.  The level
of a phase is the last that was set for it, or else the last that was set for all. -/
theorem wants_iff_after (changes : List LogChange) (target : String) :
    let c := LogConfig.after {} changes
    let f := ofConfig c
    (∀ p q : Phase, p.target.toList <+: target.toList → q.target.toList <+: target.toList →
      p = q) ∧
    (∀ p : Phase, p.target.toList <+: target.toList → ∀ l : LogLevel,
      f.wants target l ↔ l.verbosity ≤ (c.levelFor p.target).verbosity) ∧
    ((∀ p : Phase, ¬ p.target.toList <+: target.toList) → ∀ l : LogLevel,
      f.wants target l ↔ l.verbosity ≤ c.global.verbosity) ∧
    ((∀ l : LogLevel, f.wants target l ↔ l.verbosity ≤ (c.levelFor target).verbosity) ↔
      ∀ p : Phase, p.target.toList <+: target.toList → target ≠ p.target →
        c.levelFor p.target = c.global) ∧
    (c.global = (LogChange.last? LogChange.global? changes).getD .warn ∧
      ∀ p : Phase, c.levelFor p.target =
        (LogChange.last? (LogChange.own? p) changes).getD c.global) := by
  intro c f
  refine ⟨fun p q => Phase.eq_of_prefix, fun p hp l => ?_, fun hnone l => ?_, ?_, ?_, fun p => ?_⟩
  · rw [f.wants_iff_le, levelOf_phase c hp, c.levelFor_target]
  · rw [f.wants_iff_le, levelOf_other c hnone]
  · simp only [f.forall_wants_iff, c.levelFor_target]
    exact levelOf_eq_levelFor_iff c target
  · exact LogConfig.global_after {} changes
  · rw [c.levelFor_target, LogConfig.phaseLevel_after]

/-- Events of a part of a phase go by the level of the phase, for which the configuration asked for
that part gives the global level. -/
theorem wants_iff_after_part :
    let changes : List LogChange := [.one .vm .error, .all .info, .one .vm .trace]
    let c := LogConfig.after {} changes
    Phase.vm.target.toList <+: "cfglang::vm::stack".toList ∧
      ((ofConfig c).wants "cfglang::vm::stack" .debug ↔
        LogLevel.verbosity .debug ≤ (c.levelFor Phase.vm.target).verbosity) ∧
      c.levelFor Phase.vm.target = .trace ∧ c.levelFor "cfglang::vm::stack" = .info := by
  intro changes c
  have hbegins : Phase.vm.target.toList <+: "cfglang::vm::stack".toList := by decide
  obtain ⟨-, hphase, -⟩ := wants_iff_after changes "cfglang::vm::stack"
  exact ⟨hbegins, hphase .vm hbegins .debug, by decide, by decide⟩

end LogFilter

end TypedConfig
