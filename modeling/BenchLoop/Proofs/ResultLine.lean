/-
BenchLoop/Proofs/ResultLine.lean

What a result line says when it is written as JSON.

Whatever the benchmark is called and whatever was measured, the line is one line of printable
characters, and it spells one object, whose fields say what was measured (`Measurement.States`).
Since these fields leave nothing out, no two measurements have the same line
(`Measurement.line_lossless`).
-/
import BenchLoop.JsonObject.RoundTrip
import BenchLoop.Measurement

namespace BenchLoop

/-! ### Printable characters -/

namespace JsonObject

/-- A text without control characters. -/
def Printable (text : List Char) : Prop := ∀ c ∈ text, 32 ≤ c.toNat

theorem printable_nil : Printable [] := fun _ hc => absurd hc List.not_mem_nil

theorem Printable.append {text more : List Char} (h : Printable text) (hmore : Printable more) :
    Printable (text ++ more) :=
  List.forall_mem_append.2 ⟨h, hmore⟩

theorem Printable.cons {c : Char} {text : List Char} (hc : 32 ≤ c.toNat) (h : Printable text) :
    Printable (c :: text) :=
  List.forall_mem_cons.2 ⟨hc, h⟩

theorem printable_hexDigits {n : Nat} (h : n < 32) : Printable (hexDigits n) := by
  have hdigit : ∀ n < 16, 32 ≤ (Nat.digitChar n).toNat := by decide
  exact .cons (hdigit _ (by omega)) (.cons (hdigit _ (by omega)) printable_nil)

/-- An escape spells a control character without one. -/
theorem printable_escape (c : Char) : Printable (escape c) := by
  unfold escape
  split
  -- a backslash and a letter, for each character that has one of its own
  all_goals try exact .cons (by decide) (.cons (by decide) printable_nil)
  split
  · next hcontrol =>
    have hcode : Printable ('0' :: '0' :: hexDigits c.toNat) :=
      .cons (by decide) (.cons (by decide) (printable_hexDigits hcontrol))
    exact .cons (by decide) (.cons (by decide) hcode)
  · next hplain => exact .cons (Nat.not_lt.1 hplain) printable_nil

theorem printable_quote (s : String) : Printable (quote s) := by
  refine .append (.cons (by decide) fun d hd => ?_) (.cons (by decide) printable_nil)
  obtain ⟨c, -, hd⟩ := List.mem_flatMap.1 hd
  exact printable_escape c d hd

theorem printable_renderScalar (value : JsonScalar) : Printable (renderScalar value) := by
  cases value with
  | text s => exact printable_quote s
  | number n =>
    intro c hc
    have hc : c ∈ Nat.toDigits 10 n := by
      simpa [renderScalar, Nat.repr_eq_ofList_toDigits] using hc
    have hdigit := Nat.isDigit_of_mem_toDigits (by decide) (by decide) hc
    simp only [Char.isDigit, Bool.and_eq_true, decide_eq_true_eq] at hdigit
    exact Nat.le_trans (by decide : 32 ≤ 48) hdigit.1

theorem printable_renderField (field : String × JsonScalar) : Printable (renderField field) :=
  (printable_quote field.1).append (.cons (by decide) (printable_renderScalar field.2))

/-- What is written for an object stays on one line. -/
theorem printable_render (o : JsonObject) : Printable o.render.toList := by
  rw [render, String.toList_ofList]
  refine .append (.cons (by decide) ?_) (.cons (by decide) printable_nil)
  induction o.fields with
  | nil => exact printable_nil
  | cons field rest ih =>
    cases rest with
    | nil =>
      rw [List.map_singleton, List.intercalate_singleton]
      exact printable_renderField field
    | cons next rest =>
      have hcomma : Printable [','] := .cons (by decide) printable_nil
      rw [List.map_cons, List.map_cons, List.intercalate_cons_cons, ← List.map_cons]
      exact ((printable_renderField field).append hcomma).append ih

/-! ### Fields -/

def keys (o : JsonObject) : List String := o.fields.map Prod.fst

/-- The value under a key. -/
def value? (o : JsonObject) (key : String) : Option JsonScalar := o.fields.lookup key

end JsonObject

namespace Measurement

open JsonObject

/-- An object that says what a measurement says.  It has a key for a label only if this is set. -/
structure States (m : Measurement) (o : JsonObject) : Prop where
  keys : o.keys = ["benchmark", "loop", "row_count", "thread_count"] ++
    (m.pattern?.map fun _ => "access_pattern").toList ++
    (m.operation?.map fun _ => "operation").toList ++ ["total_time_ms", "avg_time_ms"]
  nodup : o.keys.Nodup
  benchmark : o.value? "benchmark" = some (.text m.benchmark)
  loop : o.value? "loop" = some (.number m.loop.toNat)
  rows : o.value? "row_count" = some (.number m.rows.toNat)
  threads : o.value? "thread_count" = some (.number m.threads.toNat)
  pattern : o.value? "access_pattern" = m.pattern?.map fun p => .text p.name
  operation : o.value? "operation" = m.operation?.map fun q => .text q.name
  totalMillis : o.value? "total_time_ms" = some (.number m.totalMillis.toNat)
  averageMillis : o.value? "avg_time_ms" = some (.number m.averageMillis.toNat)

theorem states_object (m : Measurement) : m.States m.object := by
  obtain ⟨benchmark, loop, rows, threads, pattern?, operation?, totalMillis, averageMillis⟩ := m
  cases pattern? <;> cases operation? <;> constructor <;>
    simp [object, JsonObject.keys, value?, List.lookup_cons]

/-- Nothing is left out. -/
theorem States.unique {m m' : Measurement} {o : JsonObject} (h : m.States o) (h' : m'.States o) :
    m = m' := by
  have htext {key s t : String} (hs : o.value? key = some (.text s))
      (ht : o.value? key = some (.text t)) : s = t :=
    JsonScalar.text.inj (Option.some.inj (hs.symm.trans ht))
  have hnumber {key : String} {i j : Nat} (hi : o.value? key = some (.number i))
      (hj : o.value? key = some (.number j)) : i = j :=
    JsonScalar.number.inj (Option.some.inj (hi.symm.trans hj))
  have hpattern : Function.Injective fun p : AccessPattern => JsonScalar.text p.name := by
    intro p q
    cases p <;> cases q <;> decide
  have hoperation : Function.Injective fun q : Operation => JsonScalar.text q.name := by
    intro p q
    cases p <;> cases q <;> decide
  -- field by field, each by the value that its key has in the object
  obtain ⟨benchmark, loop, rows, threads, pattern?, operation?, totalMillis, averageMillis⟩ := m
  obtain rfl := htext h.benchmark h'.benchmark
  obtain rfl := UInt32.toNat_inj.1 (hnumber h.loop h'.loop)
  obtain rfl := UInt64.toNat_inj.1 (hnumber h.rows h'.rows)
  obtain rfl := UInt64.toNat_inj.1 (hnumber h.threads h'.threads)
  obtain rfl := Option.map_injective hpattern (h.pattern.symm.trans h'.pattern)
  obtain rfl := Option.map_injective hoperation (h.operation.symm.trans h'.operation)
  obtain rfl := UInt64.toNat_inj.1 (hnumber h.totalMillis h'.totalMillis)
  obtain rfl := UInt64.toNat_inj.1 (hnumber h.averageMillis h'.averageMillis)
  rfl

/-- **A line of JSON loses nothing.**  Take any measurement, whatever characters the name of its
benchmark has.  Its line has no control characters, so it is one line.  It spells one object and no
other, which has the keys of a measurement, each of them once, and under each of them what was
measured.  No other measurement has this line. -/
theorem line_lossless (m : Measurement) :
    Printable (m.render .json).toList ∧
    (∃ o, (∀ o', Spells (m.render .json).toList o' ↔ o' = o) ∧ m.States o) ∧
    ∀ m' : Measurement, m'.render .json = m.render .json → m' = m := by
  have hspells (m : Measurement) : Spells (m.render .json).toList m.object := spells_render m.object
  refine ⟨printable_render m.object, ⟨m.object, fun o' => ⟨fun h => ?_, ?_⟩, m.states_object⟩,
    fun m' hline => ?_⟩
  · exact h.unique (hspells m)
  · rintro rfl
    exact hspells m
  · have hobject : m'.object = m.object := by
      have h := hspells m'
      rw [hline] at h
      exact h.unique (hspells m)
    exact (hobject ▸ m'.states_object).unique m.states_object

end Measurement

end BenchLoop
