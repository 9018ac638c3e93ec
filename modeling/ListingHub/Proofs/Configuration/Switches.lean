import ListingHub.Proofs.Configuration.Variables

/-!
# The case of a switch

A switch is read from its spellings in small letters and in capitals, and from no spelling that
mixes the two. So it is read as if the case of letters did not count, but for texts of mixed case:
those are no spellings at all, and the default stands.
-/

namespace ListingHub.Configuration

/-- The letters of a text are neither all small nor all capitals. -/
def Mixed (text : String) : Prop :=
  text.map Char.toLower ≠ text ∧ text.map Char.toUpper ≠ text

instance (text : String) : Decidable (Mixed text) :=
  inferInstanceAs (Decidable (_ ∧ _))

/-- The names of the two sides of a switch. -/
def sideNames : Bool → List String
  | true => ["true", "1"]
  | false => ["false", "0"]

/-- The side of a switch that a text names when the case of its letters does not count, or the
default. -/
def caseless (default : Bool) (text : String) : Bool :=
  if text.map Char.toLower ∈ sideNames true then true
  else if text.map Char.toLower ∈ sideNames false then false
  else default

variable {text other : String}

theorem toUpper_toLower (c : Char) : c.toLower.toUpper = c.toUpper := by
  unfold Char.toLower
  split
  · next hcapital =>
      have hsmall : 'a'.val ≤ c.val + ('a'.val - 'A'.val) ∧
          c.val + ('a'.val - 'A'.val) ≤ 'z'.val := by
        grind
      have hother : ¬('a'.val ≤ c.val ∧ c.val ≤ 'z'.val) := by grind
      have hback : c.val + ('a'.val - 'A'.val) + ('A'.val - 'a'.val) = c.val := by grind
      unfold Char.toUpper
      rw [dif_pos hsmall, dif_neg hother]
      exact Char.ext hback
  · rfl

theorem map_toUpper_map_toLower (text : String) :
    (text.map Char.toLower).map Char.toUpper = text.map Char.toUpper := by
  rw [String.map_map]
  exact congrArg (String.map · text) (funext toUpper_toLower)

/-- A name spells the side that it names, in small letters and in capitals. -/
theorem spellings_of_mem_sideNames {side : Bool} {name : String} (h : name ∈ sideNames side) :
    name ∈ spellings side ∧ name.map Char.toUpper ∈ spellings side := by
  revert name
  cases side <;> decide +kernel

/-- The spellings of a side are its names in letters of one case. -/
theorem mem_spellings_iff {side : Bool} :
    text ∈ spellings side ↔ ¬Mixed text ∧ text.map Char.toLower ∈ sideNames side := by
  constructor
  · revert text
    cases side <;> decide +kernel
  · rintro ⟨hpure, hname⟩
    obtain ⟨hsmall, hcapital⟩ := spellings_of_mem_sideNames hname
    rw [map_toUpper_map_toLower] at hcapital
    -- The text is what folding it to its own case leaves, and so one of the two spellings.
    rcases Decidable.not_and_iff_not_or_not.mp hpure with hcase | hcase
    · rwa [Decidable.not_not.mp hcase] at hsmall
    · rwa [Decidable.not_not.mp hcase] at hcapital

/-- No text names both sides. -/
theorem caseless_of_mem_sideNames {side : Bool} (h : text.map Char.toLower ∈ sideNames side)
    (default : Bool) : caseless default text = side := by
  have hapart : ∀ name ∈ sideNames false, name ∉ sideNames true := by decide
  cases side with
  | true => rw [caseless, if_pos h]
  | false => rw [caseless, if_neg (hapart _ h), if_pos h]

/-- A text of mixed case leaves the default, and every other is read as if its case did not
count. -/
theorem switch_some (default : Bool) (text : String) :
    switch default (some text) = if Mixed text then default else caseless default text := by
  rw [switch_eq, Option.bind_some]
  cases hside : switch? text with
  | some side =>
      obtain ⟨hpure, hname⟩ := mem_spellings_iff.mp (switch?_eq_some_iff.mp hside)
      rw [if_neg hpure, caseless_of_mem_sideNames hname, Option.getD_some]
  | none =>
      rw [Option.getD_none]
      split
      · rfl
      · next hpure =>
          have hnone (side : Bool) : text.map Char.toLower ∉ sideNames side := fun hname =>
            have hspelled := switch?_eq_some_iff.mpr (mem_spellings_iff.mpr ⟨hpure, hname⟩)
            Option.some_ne_none side (hspelled.symm.trans hside)
          rw [caseless, if_neg (hnone true), if_neg (hnone false)]

theorem caseless_congr (h : text.map Char.toLower = other.map Char.toLower) (default : Bool) :
    caseless default text = caseless default other := by
  rw [caseless, caseless, h]

/-- Texts that differ by case are read alike unless one of them alone is of mixed case. -/
theorem switch_eq_switch_iff (h : text.map Char.toLower = other.map Char.toLower)
    (default : Bool) :
    switch default (some text) = switch default (some other) ↔
      caseless default text = default ∨ (Mixed text ↔ Mixed other) := by
  rw [switch_some, switch_some, ← caseless_congr h]
  -- Both texts say the same, so a difference needs the default in place of one of them.
  by_cases htext : Mixed text <;> by_cases hother : Mixed other <;> simp [htext, hother, eq_comm]

/-- The variables that are switches, with the fields they settle. -/
def switches : List (String × (Configuration → Bool)) :=
  [("PERSISTENCE_ENABLED", Configuration.persistenceEnabled),
    ("RUN_MIGRATIONS", Configuration.runMigrations)]

/-- Both switches are on by default. -/
theorem field_of_switch {env : Environment} {config : Configuration} (h : read env = .ok config)
    {s : String × (Configuration → Bool)} (hs : s ∈ switches) :
    s.2 config = switch true (env.text? s.1) := by
  rcases List.mem_cons.mp hs with rfl | hs
  · exact (field_of_read h .persistenceEnabled).trans (switch_eq _ _).symm
  · obtain rfl := List.mem_singleton.mp hs
    exact (field_of_read h .runMigrations).trans (switch_eq _ _).symm

/-- A switch that is set to a text in letters of one case is read as if the case of letters did not
count, and any other stands at its default. So a switch in two environments, set to texts that
differ by the case of their letters, is on in both or off in both, unless the texts say that it is
off and one of them alone is of mixed case. -/
theorem switches_by_case (env : Environment) :
    (∀ name default text, env.Sets name text → switch default (env.text? name) =
      if Mixed text then default else caseless default text) ∧
    (∀ name default, (∀ text, ¬env.Sets name text) → switch default (env.text? name) = default) ∧
    ∀ config, read env = .ok config → ∀ s ∈ switches,
      s.2 config = switch true (env.text? s.1) ∧
      ∀ (other : Environment) otherConfig text otherText, read other = .ok otherConfig →
        env.Sets s.1 text → other.Sets s.1 otherText →
        text.map Char.toLower = otherText.map Char.toLower →
        (s.2 config = s.2 otherConfig ↔
          caseless true text = true ∨ (Mixed text ↔ Mixed otherText)) := by
  refine ⟨fun name default text hset => ?_, fun name default hunset => ?_, ?_⟩
  · rw [Environment.text?_eq_some_iff.mpr hset, switch_some]
  · have htext : env.text? name = none := Option.eq_none_iff_forall_ne_some.mpr fun text heq =>
      hunset text (Environment.text?_eq_some_iff.mp heq)
    rw [htext]
    rfl
  · intro config hread s hs
    refine ⟨field_of_switch hread hs, fun other otherConfig text otherText hother => ?_⟩
    intro htext hotherText hcase
    rw [field_of_switch hread hs, field_of_switch hother hs,
      Environment.text?_eq_some_iff.mpr htext, Environment.text?_eq_some_iff.mpr hotherText]
    exact switch_eq_switch_iff hcase true

/-- Switches that are off: one in capitals, and one in mixed case. -/
def capitals : Environment :=
  listed [("RUN_MIGRATIONS", Utf8.ofText "FALSE"), ("PERSISTENCE_ENABLED", Utf8.ofText "False")]

/-- A switch that is off, in small letters. -/
def smallLetters : Environment :=
  listed [("RUN_MIGRATIONS", Utf8.ofText "false")]

theorem switches_by_case_capitals :
    ∃ config small, read capitals = .ok config ∧ read smallLetters = .ok small ∧
      config.runMigrations = small.runMigrations ∧
      switch true (capitals.text? "RUN_MIGRATIONS") = false ∧
      switch false (capitals.text? "PERSISTENCE_ENABLED") = false ∧
      switch true (smallLetters.text? "PERSISTENCE_ENABLED") = true := by
  obtain ⟨config, hread, -⟩ := exists_of_toOption
    (show (read capitals).toOption.map (fun _ => ()) = some () by decide +kernel)
  obtain ⟨small, hsmall, -⟩ := exists_of_toOption
    (show (read smallLetters).toOption.map (fun _ => ()) = some () by decide +kernel)
  obtain ⟨hset, -, hfields⟩ := switches_by_case capitals
  obtain ⟨-, hunset, -⟩ := switches_by_case smallLetters
  have hcapital : capitals.Sets "RUN_MIGRATIONS" "FALSE" := rfl
  have hmixed : capitals.Sets "PERSISTENCE_ENABLED" "False" := rfl
  have hlower : smallLetters.Sets "RUN_MIGRATIONS" "false" := rfl
  have hnone (text : String) : ¬smallLetters.Sets "PERSISTENCE_ENABLED" text := fun h => by cases h
  have hcapitalLower : "FALSE".map Char.toLower = "false" := by decide +kernel
  have hsmallLower : "false".map Char.toLower = "false" := by decide +kernel
  have hpure : Mixed "FALSE" ↔ Mixed "false" := by decide +kernel
  have hmigrations : ("RUN_MIGRATIONS", Configuration.runMigrations) ∈ switches :=
    List.mem_cons_of_mem _ (List.mem_singleton.mpr rfl)
  have hsame := (hfields config hread _ hmigrations).2 smallLetters small _ _ hsmall hcapital
    hlower (hcapitalLower.trans hsmallLower.symm)
  refine ⟨config, small, hread, hsmall, hsame.mpr (.inr hpure), ?_, ?_, hunset _ true hnone⟩
  · rw [hset _ true _ hcapital]
    decide +kernel
  · rw [hset _ false _ hmixed]
    decide +kernel

/-- With a capital first letter, text that says a switch is off leaves it on. -/
theorem capitalized_false_is_ignored :
    ∃ config small,
      read (listed [("PERSISTENCE_ENABLED", Utf8.ofText "False")]) = .ok config ∧
      read (listed [("PERSISTENCE_ENABLED", Utf8.ofText "false")]) = .ok small ∧
      "False".map Char.toLower = "false" ∧
      config.persistenceEnabled = true ∧ small.persistenceEnabled = false := by
  obtain ⟨config, hread, hon⟩ := exists_of_toOption
    (show (read (listed [("PERSISTENCE_ENABLED", Utf8.ofText "False")])).toOption.map
      (·.persistenceEnabled) = some true by decide +kernel)
  obtain ⟨small, hsmall, hoff⟩ := exists_of_toOption
    (show (read (listed [("PERSISTENCE_ENABLED", Utf8.ofText "false")])).toOption.map
      (·.persistenceEnabled) = some false by decide +kernel)
  exact ⟨config, small, hread, hsmall, by decide +kernel, hon, hoff⟩

end ListingHub.Configuration
