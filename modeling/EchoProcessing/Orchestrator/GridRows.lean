/-
The rows of a processing as the cells of its grid.

A row keeps the size and the transform of the cell it was made for among its
assigned columns, so the match survives every save of a copy.
-/

import EchoProcessing.Orchestrator.Delivery

namespace EchoProcessing.Orchestrator

open EchoWorkerRepository EchoWorkerService

def EchoWorker.cell (row : EchoWorker) : Cell :=
  { sizeX := row.tileSizeX, sizeY := row.tileSizeY, geoTransform := row.geoTransform }

theorem cell_of_assignment {left right : EchoWorker}
    (same : left.assignment = right.assignment) : left.cell = right.cell := by
  have column := congrArg EchoWorker.cell same
  exact column

theorem map_cell_newWorkers (processingId imageURL : String) (uuid : ℕ → String) (grid : Grid) :
    (newWorkers processingId imageURL uuid grid).map EchoWorker.cell = grid.cells := by
  apply List.ext_getElem?
  intro index
  unfold newWorkers
  rw [List.getElem?_map, List.getElem?_mapIdx, Option.map_map]
  cases grid.cells[index]? with
  | none => rfl
  | some cell => rfl

/-- The grid into which `start` splits the image of the message. -/
def GridFor (message : EchoStartMessage) (grid : Grid) : Prop :=
  ∃ geoTransform, EchoService.geoTransformOf message = .ok geoTransform ∧
    EchoService.gridOf message geoTransform = .ok grid

theorem GridFor.unique {message : EchoStartMessage} {left right : Grid}
    (first : GridFor message left) (second : GridFor message right) : left = right := by
  obtain ⟨leftTransform, leftEq, leftSplit⟩ := first
  obtain ⟨rightTransform, rightEq, rightSplit⟩ := second
  have same : leftTransform = rightTransform := Except.ok.inj (leftEq.symm.trans rightEq)
  subst same
  exact Except.ok.inj (leftSplit.symm.trans rightSplit)

theorem GridFor.cells_ne_nil {message : EchoStartMessage} {grid : Grid}
    (gridFor : GridFor message grid) : grid.cells ≠ [] := by
  obtain ⟨geoTransform, _, split⟩ := gridFor
  exact ((GridService.split_ok_iff _ _ _ _ _ _).mp split).2

/-- The rows correspond one to one with the cells, in the order of the insertion. -/
def MatchesGrid (message : EchoStartMessage) (db : Database) : Prop :=
  ∃ grid, GridFor message grid ∧
    (ofProcessing db message.processingId).map EchoWorker.cell = grid.cells

theorem MatchesGrid.ne_nil {message : EchoStartMessage} {db : Database}
    (grid : MatchesGrid message db) : ofProcessing db message.processingId ≠ [] := by
  obtain ⟨cells, gridFor, same⟩ := grid
  intro empty
  rw [empty, List.map_nil] at same
  exact gridFor.cells_ne_nil same.symm

theorem MatchesGrid.save {message : EchoStartMessage} {db : Database} {copy : EchoWorker}
    (grid : MatchesGrid message db) (copies : db.Copies copy) :
    MatchesGrid message (save db copy) := by
  obtain ⟨cells, gridFor, same⟩ := grid
  refine ⟨cells, gridFor, ?_⟩
  rw [map_ofProcessing_save copies _ _ cell_of_assignment, same]

theorem MatchesGrid.of_same_rows {message : EchoStartMessage} {db next : Database}
    (grid : MatchesGrid message db)
    (same : ofProcessing next message.processingId = ofProcessing db message.processingId) :
    MatchesGrid message next := by
  obtain ⟨cells, gridFor, cellsEq⟩ := grid
  exact ⟨cells, gridFor, same ▸ cellsEq⟩

theorem matchesGrid_of_rows {message : EchoStartMessage} {db : Database} {uuid : ℕ → String}
    {grid : Grid} (gridFor : GridFor message grid)
    (rows : ofProcessing db message.processingId =
      newWorkers message.processingId message.imageURL uuid grid) : MatchesGrid message db := by
  refine ⟨grid, gridFor, ?_⟩
  rw [rows, map_cell_newWorkers]

end EchoProcessing.Orchestrator
