import Chartbook.Dataset.DateAxis
import Chartbook.Proofs.Named

/-!
# The choice of the date axis

The axis is looked up by name first and by position then.  Both searches see the
same columns, those of dates that are not named for a part of a date.
-/

namespace Chartbook.Dataset

def CanBeAxis (d : Dataset) (c : Column) : Prop :=
  c ∈ d.columns ∧ c.values.areDates = true ∧ c.name ≠ "mes" ∧ c.name ≠ "ano"

def CanBeAxisNamed (d : Dataset) (name : String) : Prop :=
  ∃ c, d.CanBeAxis c ∧ c.name = name

/-- The name of the axis: the first well-known name, or the leftmost column. -/
inductive AxisChoice (d : Dataset) : String → Prop where
  | wellKnown {before after : List String} {name : String}
      (h : ["data", "date", "dt", "dia", "competencia", "month"] =
        before ++ name :: after)
      (hname : d.CanBeAxisNamed name)
      (hbefore : ∀ earlier ∈ before, ¬d.CanBeAxisNamed earlier) :
      AxisChoice d name
  | leftmost {before after : List Column} {c : Column}
      (hnone : ∀ name ∈ ["data", "date", "dt", "dia", "competencia", "month"],
        ¬d.CanBeAxisNamed name)
      (h : d.columns = before ++ c :: after) (hc : d.CanBeAxis c)
      (hbefore : ∀ earlier ∈ before, ¬d.CanBeAxis earlier) :
      AxisChoice d c.name

variable {d : Dataset}

theorem isDateColumn_axisName_iff (hnames : d.columnNames.Nodup)
    {name : String} (h : name ∈ axisNames) :
    d.isDateColumn name = true ↔ d.CanBeAxisNamed name := by
  have hpart : name ≠ "mes" ∧ name ≠ "ano" := by
    constructor
    · rintro rfl
      contradiction
    · rintro rfl
      contradiction
  rw [isDateColumn_iff_exists hnames]
  constructor
  · rintro ⟨c, hc, rfl, hdates⟩
    exact ⟨c, ⟨hc, hdates, hpart⟩, rfl⟩
  · rintro ⟨c, ⟨hc, hdates, -⟩, hname⟩
    exact ⟨c, hc, hname, hdates⟩

theorem canBeAxis_iff {c : Column} (hc : c ∈ d.columns) :
    (c.values.areDates && !calendarParts.contains c.name) = true ↔
      d.CanBeAxis c := by
  simp [CanBeAxis, calendarParts, hc]

theorem axisChoice_of_dateAxis? (hnames : d.columnNames.Nodup) {n : String}
    (h : d.dateAxis? = some n) : d.AxisChoice n := by
  unfold dateAxis? at h
  rcases Option.or_eq_some_iff.mp h with hname | ⟨hnone, hcolumn⟩
  · obtain ⟨hdate, before, after, heq, hbefore⟩ :=
      List.find?_eq_some_iff_append.mp hname
    have hmem : ∀ earlier ∈ before, earlier ∈ axisNames := by
      intro earlier hearlier
      simp [heq, hearlier]
    apply AxisChoice.wellKnown heq
    · rw [← isDateColumn_axisName_iff hnames (List.mem_of_find?_eq_some hname)]
      exact hdate
    · intro earlier hearlier hcan
      have hno := hbefore earlier hearlier
      rw [(isDateColumn_axisName_iff hnames (hmem earlier hearlier)).mpr hcan]
        at hno
      contradiction
  · obtain ⟨c, hfind, rfl⟩ := Option.map_eq_some_iff.mp hcolumn
    obtain ⟨hdate, before, after, heq, hbefore⟩ :=
      List.find?_eq_some_iff_append.mp hfind
    apply AxisChoice.leftmost _ heq
    · exact (canBeAxis_iff (List.mem_of_find?_eq_some hfind)).mp hdate
    · intro earlier hearlier hcan
      have hno := hbefore earlier hearlier
      rw [(canBeAxis_iff hcan.1).mpr hcan] at hno
      contradiction
    · intro name hmem hcan
      have hno := List.find?_eq_none.mp hnone name hmem
      exact hno ((isDateColumn_axisName_iff hnames hmem).mpr hcan)

theorem AxisChoice.canBeAxisNamed {n : String} (h : d.AxisChoice n) :
    d.CanBeAxisNamed n := by
  cases h with
  | wellKnown _ hname => exact hname
  | leftmost _ _ hc => exact ⟨_, hc, rfl⟩

theorem exists_dateAxis?_iff (hnames : d.columnNames.Nodup) :
    (∃ n, d.dateAxis? = some n) ↔ ∃ c, d.CanBeAxis c := by
  constructor
  · rintro ⟨n, hn⟩
    obtain ⟨c, hc, -⟩ := (axisChoice_of_dateAxis? hnames hn).canBeAxisNamed
    exact ⟨c, hc⟩
  · rintro ⟨c, hc⟩
    have hcolumn : (d.columns.find? fun c =>
        c.values.areDates && !calendarParts.contains c.name).isSome := by
      rw [List.find?_isSome]
      exact ⟨c, hc.1, (canBeAxis_iff hc.1).mpr hc⟩
    rw [← Option.isSome_iff_exists, dateAxis?, Option.isSome_or,
      Option.isSome_map, hcolumn, Bool.or_true]

theorem isDateColumn_of_dateAxis? (hnames : d.columnNames.Nodup) {n : String}
    (h : d.dateAxis? = some n) : d.isDateColumn n = true := by
  obtain ⟨c, ⟨hc, hdates, -⟩, hname⟩ :=
    (axisChoice_of_dateAxis? hnames h).canBeAxisNamed
  exact (isDateColumn_iff_exists hnames).mpr ⟨c, hc, hname, hdates⟩

end Chartbook.Dataset
