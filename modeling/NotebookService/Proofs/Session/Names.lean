/-
# `NotebookService.Proofs.Session.Names` — made-up names are numbered through

A name is made up for a job whose body defines no function, and for nothing else.
Such a cell takes one name whether or not its trigger can be read, and every other
cell leaves the count as it is, whatever becomes of it (`Cell.counter_compile`).
So the number that a cell starts with is known without compiling the cells in
front of it: it is the number of cells among them that take a name, over all the
notebooks of the session.

The names are distinct because their numbers are, and a number can be read
back from its digits.
-/
import NotebookService.Proofs.Decimal.Digits
import NotebookService.Proofs.ServiceModule.Assembly
import NotebookService.Proofs.ServiceModule.Isolation
import NotebookService.Session

namespace NotebookService

open NotebookService.Code

/-! ## Jobs -/

namespace Job

theorem toList_madeUpName (n : Nat) :
    (madeUpName n).toList = "generated_func_".toList ++ Decimal.digitsOf n :=
  calc (madeUpName n).toList
    _ = "generated_func_".toList ++ (toString n).toList := String.toList_append
    _ = "generated_func_".toList ++ Decimal.digitsOf n := congrArg _ Nat.toList_repr

theorem madeUpName_injective {m n : Nat} (h : madeUpName m = madeUpName n) : m = n := by
  have hl := (toList_madeUpName m).symm.trans
    ((congrArg String.toList h).trans (toList_madeUpName n))
  have hd : Decimal.digitsOf m = Decimal.digitsOf n := List.append_cancel_left hl
  rw [← Decimal.valueOf_digitsOf m, hd, Decimal.valueOf_digitsOf]

/-- The code of a job under a name that is not in its body: the body in a wrapper of
that name, or the comment that stands in for a job whose trigger cannot be read. -/
def NamedCode (j : Job) (name : String) (items : List Statement) : Prop :=
  (∃ d, (decorator j.trigger name).value = .ok d ∧ items = [wrapper name d j.source]) ∨
    ∃ comment, (decorator j.trigger name).value = .error comment ∧ items = [.line comment]

/-- The body of the job defines no function. -/
def needsName (j : Job) : Bool := (Signature.ofSource? j.source).isNone

theorem counter_generate (j : Job) (generated : Nat) :
    (j.generate generated).value.2 = generated + if j.needsName then 1 else 0 := by
  unfold generate needsName
  cases Signature.ofSource? j.source with
  | some s =>
      dsimp only
      rw [Noted.value_bind]
      cases (decorator j.trigger s.name).value <;> rfl
  | none =>
      dsimp only
      rw [Noted.value_bind]
      cases (decorator j.trigger (madeUpName generated)).value <;> rfl

theorem namedCode_generate {j : Job} (h : j.needsName = true) (generated : Nat) :
    j.NamedCode (madeUpName generated) (j.generate generated).value.1 := by
  unfold generate
  rw [Option.isNone_iff_eq_none.1 h]
  dsimp only
  rw [Noted.value_bind]
  cases hd : (decorator j.trigger (madeUpName generated)).value with
  | ok d => exact .inl ⟨d, hd, rfl⟩
  | error comment => exact .inr ⟨comment, hd, rfl⟩

end Job

/-! ## Cells -/

namespace Cell

/-- The job that a cell declares itself to be. -/
def job? (c : Cell) : Option Job :=
  if c.isCompiled then
    match (CellSpec.ofSource c.source).value with
    | some (.scheduled job) => some job
    | _ => none
  else none

/-- The cell is a job whose body defines no function. -/
def takesName (c : Cell) : Bool := c.job?.any Job.needsName

/-- Only a cell that takes a name counts, and it counts for one. -/
theorem counter_compile (c : Cell) (generated : Nat) :
    (c.compile generated).value.2 = generated + if c.takesName then 1 else 0 := by
  unfold takesName job?
  rcases c.value_compile generated with ⟨hc, hv⟩ | ⟨hc, hs, hv⟩ | ⟨spec, hc, hs, hv⟩ <;>
    rw [hv, hc]
  · rfl
  · rw [hs]
    rfl
  · rw [hs]
    cases spec with
    | passthrough source => rfl
    | http e => rfl
    | socket e => rfl
    | scheduled job => exact job.counter_generate generated

theorem exists_namedCode {c : Cell} (h : c.takesName = true) (generated : Nat) :
    ∃ job items, c.job? = some job ∧ job.needsName = true ∧
      (c.compile generated).value.1 = .compiled (.scheduled items) ∧
      job.NamedCode (Job.madeUpName generated) items := by
  obtain ⟨job, hj, hn⟩ := (Option.any_eq_true _ _).1 h
  refine ⟨job, (job.generate generated).value.1, hj, hn, ?_,
    Job.namedCode_generate hn generated⟩
  unfold job? at hj
  rcases c.value_compile generated with ⟨hc, hv⟩ | ⟨hc, hs, hv⟩ | ⟨spec, hc, hs, hv⟩ <;>
    rw [hc] at hj
  · cases hj
  · rw [hs] at hj
    cases hj
  · rw [hs] at hj
    cases spec with
    | passthrough source => cases hj
    | http e => cases hj
    | socket e => cases hj
    | scheduled job' =>
        cases hj
        rw [hv]
        rfl

/-- The name that a cell takes, given the number of names made up before. -/
def name? (c : Cell) (generated : Nat) : Option String :=
  if c.takesName then some (Job.madeUpName generated) else none

end Cell

/-! ## Cells in a row -/

/-- The names that cells in a row take, given the number of names made up before them. -/
def namesTaken (generated : Nat) : List Cell → List String
  | [] => []
  | c :: cs => (c.name? generated).toList ++ namesTaken (c.compile generated).value.2 cs

theorem madeUpAfter_eq (generated : Nat) (cells : List Cell) :
    madeUpAfter generated cells = generated + cells.countP Cell.takesName := by
  induction cells generalizing generated with
  | nil => rfl
  | cons c cs ih =>
      have hcons : madeUpAfter generated (c :: cs) =
          madeUpAfter (c.compile generated).value.2 cs := rfl
      rw [hcons, ih, c.counter_compile, List.countP_cons]
      omega

theorem namesTaken_eq (generated : Nat) (cells : List Cell) :
    namesTaken generated cells =
      (List.range (cells.countP Cell.takesName)).map fun k =>
        Job.madeUpName (generated + k) := by
  induction cells generalizing generated with
  | nil => rfl
  | cons c cs ih =>
      rw [namesTaken, ih, c.counter_compile, List.countP_cons, Cell.name?]
      cases c.takesName with
      | false => rfl
      | true =>
          rw [if_pos rfl, if_pos rfl, List.range_succ_eq_map, List.map_cons, List.map_map]
          refine congrArg (Job.madeUpName generated :: ·)
            (List.map_congr_left fun k _ => ?_)
          exact congrArg Job.madeUpName (by omega)

theorem nodup_namesTaken (generated : Nat) (cells : List Cell) :
    (namesTaken generated cells).Nodup := by
  rw [namesTaken_eq]
  refine List.Nodup.map ?_ List.nodup_range
  intro j k h
  exact Nat.add_left_cancel (Job.madeUpName_injective h)

theorem getElem?_compileCells (index generated : Nat) (before : List Cell) (c : Cell)
    (after : List Cell) :
    let n := generated + before.countP Cell.takesName
    (compileCells index generated (before ++ c :: after)).1[before.length]? =
      some ⟨(c.compile n).value.1,
        (c.compile n).diagnostics (index + before.length)⟩ := by
  intro n
  have hlast : (compileCells index generated before).2 = n := by
    rw [compileCells_eq, madeUpAfter_eq]
  have happend := congrArg Prod.fst
    (compileCells_append index generated before (c :: after))
  dsimp only at happend
  rw [happend, hlast, List.getElem?_append_right (by rw [length_compileCells]),
    length_compileCells, Nat.sub_self]
  rfl

/-! ## Sessions -/

namespace Session

variable {s : Session}

theorem serveAll_append (s : Session) (rs rs' : List Request) :
    s.serveAll (rs ++ rs') =
      ((s.serveAll rs).1 ++ ((s.serveAll rs).2.serveAll rs').1,
        ((s.serveAll rs).2.serveAll rs').2) := by
  induction rs generalizing s with
  | nil => rfl
  | cons r rs ih => simp only [List.cons_append, serveAll, ih]

theorem length_serveAll (s : Session) (rs : List Request) :
    (s.serveAll rs).1.length = rs.length := by
  induction rs generalizing s with
  | nil => rfl
  | cons r rs ih => simp only [serveAll, List.length_cons, ih]

theorem serve_compile (n : Nat) (cells : List Cell) : serve ⟨n⟩ (.compile cells) =
    (.compiled (.ofResults (compileCells 0 n cells).1),
      ⟨n + cells.countP Cell.takesName⟩) := by
  have hlast : (compileCells 0 n cells).2 = n + cells.countP Cell.takesName := by
    rw [compileCells_eq, madeUpAfter_eq]
  rw [← hlast]
  rfl

theorem generated_serveAll (n : Nat) (notebooks : List (List Cell)) :
    (serveAll ⟨n⟩ (notebooks.map .compile)).2 =
      ⟨n + notebooks.flatten.countP Cell.takesName⟩ := by
  induction notebooks generalizing n with
  | nil => rfl
  | cons cells notebooks ih =>
      rw [List.map_cons, serveAll, serve_compile]
      show (serveAll _ _).2 = _
      rw [ih, List.flatten_cons, List.countP_append, Nat.add_assoc]

theorem getElem?_serveAll (n : Nat) (earlier : List (List Cell)) (cells : List Cell)
    (later : List (List Cell)) :
    (serveAll ⟨n⟩ ((earlier ++ cells :: later).map .compile)).1[earlier.length]? =
      some (.compiled (.ofResults
        (compileCells 0 (n + earlier.flatten.countP Cell.takesName) cells).1)) := by
  have hl : (serveAll ⟨n⟩ (earlier.map .compile)).1.length = earlier.length := by
    rw [length_serveAll, List.length_map]
  rw [List.map_append, serveAll_append, ← hl, List.getElem?_append_right (Nat.le_refl _),
    Nat.sub_self, generated_serveAll, List.map_cons, serveAll, serve_compile]
  rfl

/-- Over the notebooks of a session that begins at some number, the count goes up by one
at each job whose body defines no function and nowhere else, and such a job is compiled
under the name of the number that has been reached.  So the names are those of the
numbers from the first on, and no two of them are the same.  After a reset all replies
are those of a session that has just begun. -/
theorem names_numbered_through (n : Nat) (notebooks : List (List Cell)) :
    let cells := notebooks.flatten
    let session := serveAll ⟨n⟩ (notebooks.map .compile)
    session.2.generated = n + cells.countP Cell.takesName ∧
    namesTaken n cells =
      (List.range (cells.countP Cell.takesName)).map (fun k => Job.madeUpName (n + k)) ∧
    (namesTaken n cells).Nodup ∧
    (∀ earlier before c after later, notebooks =
      earlier ++ (before ++ c :: after) :: later →
      let k := (earlier.flatten ++ before).countP Cell.takesName
      let run := c.compile (n + k)
      (∃ results, session.1[earlier.length]? = some (.compiled (.ofResults results)) ∧
        results[before.length]? = some ⟨run.value.1, run.diagnostics before.length⟩) ∧
      run.value.2 = n + k + (if c.takesName then 1 else 0) ∧
      (c.takesName = true → ∃ job items, c.job? = some job ∧ job.needsName = true ∧
        run.value.1 = .compiled (.scheduled items) ∧
        job.NamedCode (Job.madeUpName (n + k)) items)) ∧
    ∀ s requests, (serveAll s (requests ++ .reset :: notebooks.map .compile)).1 =
      (serveAll s requests).1 ++
      .done :: (serveAll fresh (notebooks.map .compile)).1 := by
  intro cells session
  refine ⟨congrArg Session.generated (generated_serveAll n notebooks),
    namesTaken_eq n cells, nodup_namesTaken n cells, ?_, ?_⟩
  · intro earlier before c after later hsplit k run
    refine ⟨?_, c.counter_compile (n + k), fun h => Cell.exists_namedCode h (n + k)⟩
    refine ⟨(compileCells 0 (n + earlier.flatten.countP Cell.takesName)
        (before ++ c :: after)).1, ?_, ?_⟩
    · show (serveAll ⟨n⟩ (notebooks.map .compile)).1[earlier.length]? = _
      rw [hsplit]
      exact getElem?_serveAll n earlier _ later
    · rw [getElem?_compileCells, Nat.zero_add, Nat.add_assoc, ← List.countP_append]
  · intro s requests
    rw [serveAll_append]
    rfl

end Session

end NotebookService
