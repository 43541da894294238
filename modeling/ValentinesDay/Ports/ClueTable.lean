import ValentinesDay.Ports.Firestore
import ValentinesDay.Verified.Fallible
import ValentinesDay.Verified.Run

/-!
# The clue table

`MenuView` keeps two copies of the clues: the array `clues`, which the listener
of `getClues` replaces at once, and the rows the table shows, which follow only
when a queued `reloadData` block runs.  The table asks for a cell whenever a
row comes into view, and a tap reads both copies.

The table itself is UIKit's: it asks for rows below the row count it last read,
and a reload drops its cells and reads the count anew.

## Main results

* `table_settles_iff` — the table stays within `clues`, and settles on the last
  snapshot, exactly when no snapshot is shorter than the table is at its
  delivery.
* `opened_clue_unlocked` — a tap opens only unlocked clues while no tap meets a
  cell that is out of date.
-/

namespace ValentinesDay.Ports.ClueTable

open ValentinesDay.Verified.Fallible
open ValentinesDay.Verified.Run
open ValentinesDay.Ports.Runtime
open ValentinesDay.Ports.Firestore

/-! ## The screen -/

/-- A row of `clues` as `getClues` builds it. -/
structure ClueStruct where
  cluename : Option String
  islocked : Option Bool
  deriving DecidableEq, Repr

/-- The colours a cell is given. -/
inductive UIColor where
  | black
  | lightGray
  deriving DecidableEq, Repr

/-- A system symbol with its tint. -/
structure Symbol where
  systemName : String
  tintColor : UIColor
  deriving DecidableEq, Repr

/-- The parts of a cell that `cellForRowAt` and `prepareForReuse` set. -/
structure ClueCell where
  clueText : Option String
  textColor : UIColor
  lockimageIsHidden : Bool
  lockimage : Symbol
  clueimage : Symbol
  deriving DecidableEq, Repr

/-- A cell as its class initialises it. -/
def ClueCell.registered : ClueCell where
  clueText := none
  textColor := .black
  lockimageIsHidden := false
  lockimage := { systemName := "lock.fill", tintColor := .black }
  clueimage := { systemName := "map", tintColor := .black }

/-- What `cellForRowAt` does to the cell it dequeued. -/
def ClueCell.configure (cell : ClueCell) (clue : ClueStruct) : ClueCell :=
  if clue.islocked = some false then
    { clueText := clue.cluename
      textColor := .black
      lockimageIsHidden := true
      lockimage := { systemName := "lock.fill", tintColor := .black }
      clueimage := { systemName := "map", tintColor := .black } }
  else if clue.islocked = some true then
    { clueText := clue.cluename
      textColor := .lightGray
      lockimageIsHidden := false
      lockimage := { systemName := "lock.fill", tintColor := .lightGray }
      clueimage := { systemName := "map.fill", tintColor := .lightGray } }
  else { cell with clueText := clue.cluename }

@[simp] theorem ClueCell.clueText_configure (cell : ClueCell) (clue : ClueStruct) :
    (cell.configure clue).clueText = clue.cluename := by
  unfold ClueCell.configure
  split
  · rfl
  · split <;> rfl

/-- The screen, its table and the reload blocks waiting on the main queue. -/
structure MenuView where
  clues : List ClueStruct
  /-- What `numberOfRowsInSection` last returned to the table. -/
  rowCount : Nat
  /-- The cells the table displays, by row. -/
  cells : Nat → Option ClueCell
  pendingReloads : Nat
  /-- History: the last snapshot the listener was given. -/
  latest : List QueryDocument

/-- The screen before the first snapshot. -/
def MenuView.loaded : MenuView where
  clues := []
  rowCount := 0
  cells _ := none
  pendingReloads := 0
  latest := []

/-- The loop of `getClues`; each document queues a reload. -/
def appendClues (m : MenuView) : List QueryDocument → Except Crash MenuView
  | [] => .ok m
  | d :: documents => do
      let islocked ← castBool (some d.data) "Locked"
      appendClues
        { m with
          clues := m.clues ++
            [{ cluename := some d.documentID, islocked := some islocked }]
          pendingReloads := m.pendingReloads + 1 } documents

/-- The callback of `MenuView.getClues`. -/
def getClues (m : MenuView) : QueryResponse → Except Crash MenuView
  | .error => .ok m
  | .snapshot documents => appendClues { m with clues := [], latest := documents } documents

/-- `tableView(_:numberOfRowsInSection:)`. -/
def numberOfRows (m : MenuView) : Nat := m.clues.length

/-- `tableView(_:cellForRowAt:)` with the cell it dequeues. -/
def cellForRowAt (m : MenuView) (dequeued : ClueCell) (row : Nat) :
    Except Crash ClueCell :=
  match m.clues[row]? with
  | none => .error (.indexOutOfRange row)
  | some clue => .ok (dequeued.configure clue)

/-- `MenuView.showError`. -/
def showError : MessageContent where
  title := "Error"
  body := "You haven't unlocked this yet."
  iconText := none
  buttonTitle := some "Ok"

/-- What a tap on a row leads to. -/
inductive Selection where
  /-- A `ClueView` is presented with this `clueNumber`. -/
  | present (clueNumber : Option String)
  | showMessage (message : MessageContent)
  | nothing
  deriving DecidableEq, Repr

/-- `tableView(_:didSelectRowAt:)`: the lock is that of `clues`, the name that
of the cell. -/
def didSelectRowAt (m : MenuView) (row : Nat) : Except Crash Selection :=
  match m.cells row with
  | none => .error (.unexpectedNil "tableView.cellForRow(at: indexPath)!")
  | some cell =>
      match m.clues[row]? with
      | none => .error (.indexOutOfRange row)
      | some clue =>
          if clue.islocked = some false then .ok (.present cell.clueText)
          else if clue.islocked = some true then .ok (.showMessage showError)
          else .ok .nothing

/-- What can happen to the table between two blocks of the main queue. -/
inductive MenuEvent where
  | deliver (response : QueryResponse)
  | runReload
  /-- The table reads its row count by itself, as at its first layout. -/
  | layout
  | cellForRow (row : Nat) (dequeued : ClueCell)
  | endDisplaying (row : Nat)
  | didSelectRow (row : Nat)

/-- The table forgets its cells and reads the row count. -/
def MenuView.reloadData (m : MenuView) : MenuView :=
  { m with rowCount := numberOfRows m, cells := fun _ => none }

/-- One event; the table asks only for rows below its count, and only displayed
rows can be tapped. -/
def MenuView.step (m : MenuView) : MenuEvent → Except Crash MenuView
  | .deliver response => getClues m response
  | .runReload =>
      if m.pendingReloads = 0 then .ok m
      else .ok { m.reloadData with pendingReloads := m.pendingReloads - 1 }
  | .layout => .ok m.reloadData
  | .cellForRow row dequeued =>
      if row < m.rowCount then do
        let cell ← cellForRowAt m dequeued row
        return { m with cells := Function.update m.cells row (some cell) }
      else .ok m
  | .endDisplaying row => .ok { m with cells := Function.update m.cells row none }
  | .didSelectRow row =>
      if (m.cells row).isSome then do
        let _ ← didSelectRowAt m row
        return m
      else .ok m

/-- The screen's life up to a crash. -/
abbrev step : Except Crash MenuView → MenuEvent → Except Crash MenuView :=
  halting MenuView.step

/-! ## What a snapshot does -/

/-- The entry `getClues` makes of a document whose `Locked` is a `Bool`. -/
def clueOf (d : QueryDocument) : ClueStruct where
  cluename := some d.documentID
  islocked := d.data.bool "Locked"

theorem appendClues_hasLocked {documents : List QueryDocument}
    (h : ∀ d ∈ documents, HasLocked d) (m : MenuView) :
    appendClues m documents =
      .ok { m with
        clues := m.clues ++ documents.map clueOf
        pendingReloads := m.pendingReloads + documents.length } := by
  induction documents generalizing m with
  | nil => simp [appendClues]
  | cons d documents ih =>
      obtain ⟨b, hb⟩ := Option.isSome_iff_exists.mp (h d List.mem_cons_self)
      have hrest : ∀ d' ∈ documents, HasLocked d' := fun d' hd' =>
        h d' (List.mem_cons_of_mem d hd')
      have hclue : clueOf d = { cluename := some d.documentID, islocked := some b } := by
        rw [clueOf, hb]
      have hcount : m.pendingReloads + 1 + documents.length =
          m.pendingReloads + (d :: documents).length := by
        rw [List.length_cons]
        omega
      simp only [appendClues, castBool_locked hb, bind, Except.bind]
      rw [ih hrest]
      simp only [List.map_cons, hclue, List.append_assoc, List.singleton_append,
        hcount]

/-- A loop that got to its end met a `Bool` in every document. -/
theorem hasLocked_of_appendClues {documents : List QueryDocument} {m m' : MenuView}
    (h : appendClues m documents = .ok m') : ∀ d ∈ documents, HasLocked d := by
  induction documents generalizing m with
  | nil => simp
  | cons d documents ih =>
      simp only [appendClues, bind_eq_ok_iff, castBool_eq_ok] at h
      obtain ⟨islocked, hbool, hrest⟩ := h
      have hd : HasLocked d := Option.isSome_iff_exists.mpr ⟨islocked, hbool⟩
      exact List.forall_mem_cons.mpr ⟨hd, ih hrest⟩

theorem getClues_snapshot {documents : List QueryDocument}
    (h : ∀ d ∈ documents, HasLocked d) (m : MenuView) :
    getClues m (.snapshot documents) =
      .ok { m with
        clues := documents.map clueOf
        latest := documents
        pendingReloads := m.pendingReloads + documents.length } := by
  simp only [getClues, appendClues_hasLocked h, List.nil_append]

theorem hasLocked_of_getClues {documents : List QueryDocument} {m m' : MenuView}
    (h : getClues m (.snapshot documents) = .ok m') :
    ∀ d ∈ documents, HasLocked d :=
  hasLocked_of_appendClues h

/-! ## The array follows the snapshots -/

/-- `clues` holds the last snapshot, in its order. -/
def CluesInv : Except Crash MenuView → Prop :=
  Ends (fun m => m.clues = m.latest.map clueOf) (fun _ => True)

theorem cluesInv_getClues {m : MenuView} (h : m.clues = m.latest.map clueOf)
    (response : QueryResponse) : CluesInv (getClues m response) := by
  cases response with
  | error => exact h
  | snapshot documents =>
      cases hget : getClues m (.snapshot documents) with
      | error c => trivial
      | ok m' =>
          rw [getClues_snapshot (hasLocked_of_getClues hget)] at hget
          cases hget
          rfl

theorem cluesInv_step (p : Except Crash MenuView) (e : MenuEvent)
    (h : CluesInv p) : CluesInv (step p e) := by
  refine ends_halting h ?_
  intro m _ hm
  cases e with
  | deliver response => exact cluesInv_getClues hm response
  | runReload =>
      simp only [MenuView.step]
      split <;> exact hm
  | layout => exact hm
  | cellForRow row dequeued =>
      simp only [MenuView.step]
      split
      · cases cellForRowAt m dequeued row with
        | error c => trivial
        | ok cell => exact hm
      · exact hm
  | endDisplaying row => exact hm
  | didSelectRow row =>
      simp only [MenuView.step]
      split
      · cases didSelectRowAt m row with
        | error c => trivial
        | ok selection => exact hm
      · exact hm

/-! ## The table settles -/

/-- The rows of the table are those of the last snapshot, in its order. -/
structure Settled (m : MenuView) : Prop where
  rows : m.rowCount = m.latest.length
  cells : ∀ row cell, m.cells row = some cell →
    ∃ d dequeued, m.latest[row]? = some d ∧
      cell = ClueCell.configure dequeued (clueOf d)

/-- Every row the table can ask for is an index of `clues`, and with no reload
pending the table shows the last snapshot. -/
def TableOk : Except Crash MenuView → Prop
  | .ok m => m.rowCount ≤ m.clues.length ∧ (m.pendingReloads = 0 → Settled m)
  | .error _ => False

/-- A delivered snapshot has a document for every row of the table. -/
def LongEnough : Except Crash MenuView → MenuEvent → Prop
  | .ok m, .deliver (.snapshot documents) => m.rowCount ≤ documents.length
  | _, _ => True

/-- Every document of a delivered snapshot has a `Bool` in `Locked`. -/
def BoolLocked : MenuEvent → Prop
  | .deliver (.snapshot documents) => ∀ d ∈ documents, HasLocked d
  | _ => True

instance (p : Except Crash MenuView) (e : MenuEvent) : Decidable (LongEnough p e) := by
  cases p with
  | error c => cases e <;> exact .isTrue trivial
  | ok m =>
      cases e with
      | deliver response =>
          cases response with
          | error => exact .isTrue trivial
          | snapshot documents =>
              exact inferInstanceAs (Decidable (m.rowCount ≤ documents.length))
      | _ => exact .isTrue trivial

instance : DecidablePred BoolLocked := fun e => by
  cases e with
  | deliver response =>
      cases response with
      | error => exact .isTrue trivial
      | snapshot documents =>
          exact inferInstanceAs (Decidable (∀ d ∈ documents, HasLocked d))
  | _ => exact .isTrue trivial

/-- What keeps the table within `clues`: only displayed rows have cells, and
cells are dropped before a count is read. -/
structure TableInv (m : MenuView) : Prop where
  clues : m.clues = m.latest.map clueOf
  rows : m.rowCount ≤ m.clues.length
  displayed : ∀ row, (m.cells row).isSome → row < m.rowCount
  settled : m.pendingReloads = 0 → Settled m

/-- The screen is alive, with `TableInv`. -/
def LiveTableInv : Except Crash MenuView → Prop := Ends TableInv (fun _ => False)

theorem TableInv.length {m : MenuView} (h : TableInv m) :
    m.clues.length = m.latest.length := by
  rw [h.clues, List.length_map]

theorem tableInv_loaded : TableInv MenuView.loaded where
  clues := rfl
  rows := Nat.le_refl 0
  displayed row h := by simp [MenuView.loaded] at h
  settled _ :=
    { rows := rfl
      cells := fun row cell h => by simp [MenuView.loaded] at h }

section TableInv

variable {m : MenuView}

theorem TableInv.deliver (h : TableInv m) {documents : List QueryDocument}
    (hlong : m.rowCount ≤ documents.length) :
    TableInv
      { m with
        clues := documents.map clueOf
        latest := documents
        pendingReloads := m.pendingReloads + documents.length } where
  clues := rfl
  rows := by simpa using hlong
  displayed := h.displayed
  settled hnone := by
    simp only at hnone
    have hempty : documents.length = 0 := by omega
    have hrows : m.rowCount = 0 := by omega
    refine { rows := by simp only; omega, cells := ?_ }
    intro row cell hcell
    have hlt : row < m.rowCount := h.displayed row (by simp only at hcell; simp [hcell])
    omega

theorem TableInv.reloadData (h : TableInv m) (pending : Nat) :
    TableInv { m.reloadData with pendingReloads := pending } where
  clues := h.clues
  rows := Nat.le_refl m.clues.length
  displayed row hsome := by simp [MenuView.reloadData] at hsome
  settled _ :=
    { rows := h.length
      cells := fun row cell hcell => by simp [MenuView.reloadData] at hcell }

/-- A row the table asks for gets the cell of its document. -/
theorem TableInv.cellForRow (h : TableInv m) {row : Nat} (hrow : row < m.rowCount)
    (dequeued : ClueCell) :
    ∃ d cell, m.latest[row]? = some d ∧ cell = dequeued.configure (clueOf d) ∧
      cellForRowAt m dequeued row = .ok cell := by
  have hrows := h.rows
  have hlength := h.length
  have hlt : row < m.latest.length := by omega
  have hd : m.latest[row]? = some m.latest[row] := List.getElem?_eq_getElem hlt
  refine ⟨m.latest[row], _, hd, rfl, ?_⟩
  unfold cellForRowAt
  rw [h.clues, List.getElem?_map, hd]
  rfl

theorem TableInv.update (h : TableInv m) {row : Nat} {cell : Option ClueCell}
    (hcell : ∀ cell', cell = some cell' → row < m.rowCount ∧
      ∃ d dequeued, m.latest[row]? = some d ∧
        cell' = ClueCell.configure dequeued (clueOf d)) :
    TableInv { m with cells := Function.update m.cells row cell } where
  clues := h.clues
  rows := h.rows
  displayed row' hsome := by
    by_cases hrow : row' = row
    · subst hrow
      simp only [Function.update_self] at hsome
      obtain ⟨cell', hcell'⟩ := Option.isSome_iff_exists.mp hsome
      exact (hcell cell' hcell').1
    · simp only [Function.update_of_ne hrow] at hsome
      exact h.displayed row' hsome
  settled hnone := by
    have hsettled := h.settled hnone
    refine { rows := hsettled.rows, cells := ?_ }
    intro row' cell' hcell'
    by_cases hrow : row' = row
    · subst hrow
      simp only [Function.update_self] at hcell'
      exact (hcell cell' hcell').2
    · simp only [Function.update_of_ne hrow] at hcell'
      exact hsettled.cells row' cell' hcell'

/-- A displayed row can be tapped. -/
theorem TableInv.didSelectRow (h : TableInv m) {row : Nat}
    (hsome : (m.cells row).isSome) :
    ∃ selection, didSelectRowAt m row = .ok selection := by
  obtain ⟨cell, hcell⟩ := Option.isSome_iff_exists.mp hsome
  have hrow := h.displayed row hsome
  have hrows := h.rows
  have hlt : row < m.clues.length := by omega
  unfold didSelectRowAt
  rw [hcell, List.getElem?_eq_getElem hlt]
  simp only
  split
  · exact ⟨_, rfl⟩
  · split <;> exact ⟨_, rfl⟩

end TableInv

/-- **Step lemma.**  Snapshots that are long enough keep the table within
`clues`. -/
theorem tableInv_step (p : Except Crash MenuView) (e : MenuEvent)
    (h : LiveTableInv p) (he : LongEnough p e ∧ BoolLocked e) :
    LiveTableInv (step p e) := by
  obtain ⟨hlong, hlocked⟩ := he
  refine ends_halting h ?_
  rintro m rfl hm
  cases e with
  | deliver response =>
      cases response with
      | error => exact hm
      | snapshot documents =>
          rw [MenuView.step, getClues_snapshot hlocked]
          exact hm.deliver hlong
  | runReload =>
      simp only [MenuView.step]
      split
      · exact hm
      · exact hm.reloadData _
  | layout => exact hm.reloadData m.pendingReloads
  | cellForRow row dequeued =>
      simp only [MenuView.step]
      split
      · next hrow =>
          obtain ⟨d, cell, hd, hconfigure, hcell⟩ := hm.cellForRow hrow dequeued
          rw [hcell]
          refine hm.update ?_
          intro cell' hcell'
          cases hcell'
          exact ⟨hrow, d, dequeued, hd, hconfigure⟩
      · exact hm
  | endDisplaying row =>
      refine hm.update ?_
      intro cell' hcell'
      cases hcell'
  | didSelectRow row =>
      simp only [MenuView.step]
      split
      · next hsome =>
          obtain ⟨selection, hselect⟩ := hm.didSelectRow hsome
          rw [hselect]
          exact hm
      · exact hm

/-- A snapshot that leaves the table within `clues` was long enough, and could
be read. -/
theorem longEnough_of_tableOk_step (p : Except Crash MenuView) (e : MenuEvent)
    (h : TableOk (step p e)) : LongEnough p e ∧ BoolLocked e := by
  cases p with
  | error c => exact False.elim h
  | ok m =>
      cases e with
      | deliver response =>
          cases response with
          | error => exact ⟨trivial, trivial⟩
          | snapshot documents =>
              rw [step, halting_ok, MenuView.step] at h
              cases hget : getClues m (.snapshot documents) with
              | error c =>
                  rw [hget] at h
                  exact False.elim h
              | ok m' =>
                  have hlocked := hasLocked_of_getClues hget
                  rw [getClues_snapshot hlocked] at h
                  have hrows := h.1
                  simp only [List.length_map] at hrows
                  exact ⟨hrows, hlocked⟩
      | _ => exact ⟨trivial, trivial⟩

/-- **When the table settles.**  On snapshots with a `Bool` in every `Locked`,
the table never asks for a row that `clues` does not have, and shows the last
snapshot whenever no reload is pending, exactly when every snapshot delivered
has at least as many documents as the table has rows at that moment. -/
theorem table_settles_iff (es : List MenuEvent) (hes : ∀ e ∈ es, BoolLocked e) :
    Throughout step TableOk (.ok MenuView.loaded) es ↔
      Along step LongEnough (.ok MenuView.loaded) es := by
  have hok : ∀ p, LiveTableInv p → TableOk p := by
    intro p h
    cases p with
    | error c => exact h
    | ok m => exact ⟨h.rows, h.settled⟩
  have h0 : LiveTableInv (.ok MenuView.loaded) := tableInv_loaded
  have hexact := throughout_iff_along hok tableInv_step
    (fun p e _ hstep => longEnough_of_tableOk_step p e hstep) h0 es
  have hlocked : Along step (fun _ e => BoolLocked e) (.ok MenuView.loaded) es :=
    along_event_iff.mpr hes
  rw [hexact, along_and]
  exact and_iff_left hlocked

/-- A clue document with the one field the table reads. -/
def clueDocument (name : String) (locked : Bool) : QueryDocument where
  documentID := name
  data := Fields.ofList [("Locked", .bool locked)]

/-- A snapshot, the same clues with one more, and the reloads in between. -/
def growingSnapshots : List MenuEvent :=
  [ .deliver (.snapshot [clueDocument "Clue1" true])
  , .runReload, .cellForRow 0 ClueCell.registered
  , .deliver .error
  , .deliver (.snapshot [clueDocument "Clue1" false, clueDocument "Clue2" true])
  , .didSelectRow 0, .runReload, .runReload ]

theorem table_settles_growingSnapshots :
    Throughout step TableOk (.ok MenuView.loaded) growingSnapshots := by
  rw [table_settles_iff growingSnapshots (by decide)]
  decide

/-- One clue is shown and then no clue is left. -/
def emptySnapshot : List MenuEvent :=
  [ .deliver (.snapshot [clueDocument "Clue1" true]), .runReload
  , .deliver (.snapshot []) ]

theorem emptySnapshot_leaves_row :
    ¬∀ es : List MenuEvent, (∀ e ∈ es, BoolLocked e) →
      Throughout step TableOk (.ok MenuView.loaded) es := by
  intro hclaim
  have hok := (hclaim emptySnapshot (by decide)).last
  have hend : ∃ m, exec step (.ok MenuView.loaded) emptySnapshot = .ok m ∧
      m.rowCount = 1 ∧ m.clues.length = 0 := ⟨_, rfl, rfl, rfl⟩
  obtain ⟨m, hm, hrows, hclues⟩ := hend
  rw [hm] at hok
  have hle := hok.1
  omega

/-! ## Which riddle a tap opens -/

/-- A `ClueView` that a tap presents names a clue that is unlocked in the last
snapshot. -/
def OpensUnlocked : Except Crash MenuView → MenuEvent → Prop
  | .ok m, .didSelectRow row =>
      ∀ clueNumber, (m.cells row).isSome →
        didSelectRowAt m row = .ok (.present clueNumber) →
        ∃ d ∈ m.latest, clueNumber = some d.documentID ∧
          d.data.bool "Locked" = some false
  | _, _ => True

/-- A tap on a row that is unlocked by now meets a cell that shows the clue of
that row. -/
def TapsCurrent : Except Crash MenuView → MenuEvent → Prop
  | .ok m, .didSelectRow row =>
      ∀ cell clue, m.cells row = some cell → m.clues[row]? = some clue →
        clue.islocked = some false → cell.clueText = clue.cluename
  | _, _ => True

/-- What is presented is the text of a displayed cell whose row is unlocked. -/
theorem present_of_didSelectRowAt {m : MenuView} {row : Nat}
    {clueNumber : Option String}
    (h : didSelectRowAt m row = .ok (.present clueNumber)) :
    ∃ cell clue, m.cells row = some cell ∧ m.clues[row]? = some clue ∧
      clue.islocked = some false ∧ clueNumber = cell.clueText := by
  unfold didSelectRowAt at h
  cases hcell : m.cells row with
  | none =>
      rw [hcell] at h
      cases h
  | some cell =>
      cases hclue : m.clues[row]? with
      | none =>
          rw [hcell, hclue] at h
          cases h
      | some clue =>
          rw [hcell, hclue] at h
          simp only at h
          by_cases hlocked : clue.islocked = some false
          · rw [if_pos hlocked] at h
            cases h
            exact ⟨cell, clue, rfl, rfl, hlocked, rfl⟩
          · rw [if_neg hlocked] at h
            split at h <;> cases h

theorem opensUnlocked_of_tapsCurrent (p : Except Crash MenuView) (e : MenuEvent)
    (hclues : CluesInv p) (hcurrent : TapsCurrent p e) : OpensUnlocked p e := by
  cases p with
  | error c => cases e <;> trivial
  | ok m =>
      cases e with
      | didSelectRow row =>
          intro clueNumber _ hpresent
          obtain ⟨cell, clue, hcell, hclue, hlocked, hnumber⟩ :=
            present_of_didSelectRowAt hpresent
          have hname := hcurrent cell clue hcell hclue hlocked
          have hinv : m.clues = m.latest.map clueOf := hclues
          rw [hinv, List.getElem?_map] at hclue
          obtain ⟨d, hd, heq⟩ := Option.map_eq_some_iff.mp hclue
          refine ⟨d, List.mem_of_getElem? hd, ?_, ?_⟩
          · rw [hnumber, hname, ← heq]
            rfl
          · rw [← heq] at hlocked
            exact hlocked
      | _ => trivial

/-- **When a tap opens only unlocked clues.**  In every run whose taps on
unlocked rows meet cells that still show the clue of their row, each riddle
presented is of a clue that is unlocked in the last snapshot. -/
theorem opened_clue_unlocked (es : List MenuEvent)
    (hcurrent : Along step TapsCurrent (.ok MenuView.loaded) es) :
    Along step OpensUnlocked (.ok MenuView.loaded) es := by
  have h0 : CluesInv (.ok MenuView.loaded) := rfl
  exact along_of_guard (fun p e h _ => cluesInv_step p e h)
    opensUnlocked_of_tapsCurrent h0 hcurrent

/-- A tap on the cell of the current snapshot. -/
def tapCurrentCell : List MenuEvent :=
  [ .deliver (.snapshot [clueDocument "Clue1" false]), .runReload
  , .cellForRow 0 ClueCell.registered, .didSelectRow 0 ]

theorem opened_clue_unlocked_tapCurrentCell :
    Along step OpensUnlocked (.ok MenuView.loaded) tapCurrentCell := by
  refine opened_clue_unlocked tapCurrentCell ⟨trivial, trivial, trivial, ?_, trivial⟩
  intro cell clue hcell hclue _
  have hname : clue.cluename = some "Clue1" := by
    cases hclue
    rfl
  have htext : cell.clueText = some "Clue1" := by
    cases hcell
    rfl
  rw [htext, hname]

/-- `Clue1` is shown, then moves down a row with the reload still pending. -/
def tapStaleCell : List MenuEvent :=
  [ .deliver (.snapshot [clueDocument "Clue1" true]), .runReload
  , .cellForRow 0 ClueCell.registered
  , .deliver (.snapshot [clueDocument "Clue0" false, clueDocument "Clue1" true])
  , .didSelectRow 0 ]

theorem tapStaleCell_opens_locked :
    ¬∀ es : List MenuEvent, Along step OpensUnlocked (.ok MenuView.loaded) es := by
  intro hclaim
  obtain ⟨-, -, -, -, htap, -⟩ := hclaim tapStaleCell
  obtain ⟨d, hd, hname, hlocked⟩ := htap (some "Clue1") rfl rfl
  have hmem : d ∈ [clueDocument "Clue0" false, clueDocument "Clue1" true] := hd
  simp only [List.mem_cons, List.not_mem_nil, or_false] at hmem
  rcases hmem with rfl | rfl
  · revert hname
    decide
  · revert hlocked
    decide

/-! With no reload pending no cell is out of date, so a table left to settle
opens unlocked clues only. -/

/-- The displayed cells show the array, unless a reload is still to come. -/
def CurrentWhenQuiet : Except Crash MenuView → Prop :=
  Ends (fun m => m.pendingReloads = 0 → ∀ row cell clue, m.cells row = some cell →
    m.clues[row]? = some clue → cell.clueText = clue.cluename) (fun _ => True)

theorem currentWhenQuiet_step (p : Except Crash MenuView) (e : MenuEvent)
    (h : CurrentWhenQuiet p) : CurrentWhenQuiet (step p e) := by
  refine ends_halting h ?_
  intro m _ hm
  cases e with
  | deliver response =>
      cases response with
      | error => exact hm
      | snapshot documents =>
          cases hget : getClues m (.snapshot documents) with
          | error c =>
              rw [MenuView.step, hget]
              trivial
          | ok m' =>
              rw [MenuView.step, hget]
              rw [getClues_snapshot (hasLocked_of_getClues hget)] at hget
              cases hget
              intro hquiet row cell clue _ hclue
              simp only at hquiet
              have hempty : documents = [] :=
                List.eq_nil_of_length_eq_zero (by omega)
              simp [hempty] at hclue
  | runReload =>
      simp only [MenuView.step]
      split
      · exact hm
      · intro _ row cell clue hcell
        simp [MenuView.reloadData] at hcell
  | layout =>
      intro _ row cell clue hcell
      simp [MenuView.reloadData] at hcell
  | cellForRow row dequeued =>
      simp only [MenuView.step]
      split
      · unfold cellForRowAt
        cases hrow : m.clues[row]? with
        | none => trivial
        | some clue =>
            intro hquiet row' cell' clue' hcell' hclue'
            by_cases hsame : row' = row
            · subst hsame
              simp only [Function.update_self, Option.some.injEq] at hcell'
              simp only [hrow, Option.some.injEq] at hclue'
              rw [← hcell', ClueCell.clueText_configure, hclue']
            · simp only [Function.update_of_ne hsame] at hcell'
              exact hm hquiet row' cell' clue' hcell' hclue'
      · exact hm
  | endDisplaying row =>
      intro hquiet row' cell' clue' hcell' hclue'
      by_cases hsame : row' = row
      · subst hsame
        simp at hcell'
      · simp only [Function.update_of_ne hsame] at hcell'
        exact hm hquiet row' cell' clue' hcell' hclue'
  | didSelectRow row =>
      simp only [MenuView.step]
      split
      · cases didSelectRowAt m row with
        | error c => trivial
        | ok selection => exact hm
      · exact hm

/-- The tap comes with no reload pending. -/
def TapsQuiet : Except Crash MenuView → MenuEvent → Prop
  | .ok m, .didSelectRow _ => m.pendingReloads = 0
  | _, _ => True

/-- Taps on a settled table meet current cells. -/
theorem tapsCurrent_of_tapsQuiet {es : List MenuEvent}
    (hquiet : Along step TapsQuiet (.ok MenuView.loaded) es) :
    Along step TapsCurrent (.ok MenuView.loaded) es := by
  have h0 : CurrentWhenQuiet (.ok MenuView.loaded) := by
    intro _ row cell clue hcell
    simp [MenuView.loaded] at hcell
  refine along_of_guard (fun p e h _ => currentWhenQuiet_step p e h) ?_ h0 hquiet
  intro p e hcurrent htap
  cases p with
  | error c => cases e <;> trivial
  | ok m =>
      cases e with
      | didSelectRow row =>
          intro cell clue hcell hclue _
          exact hcurrent htap row cell clue hcell hclue
      | _ => trivial

end ValentinesDay.Ports.ClueTable
