import Tabletop.DiceSource.WordTape
import Tabletop.Proofs.Recording
import Tabletop.Proofs.Replaying

/-!
# Runs played back

What a run drew drives the same run again. As long as a replayed session has played what the
recorded one has drawn, every request for dice gets the values that it got then, so the outcomes
are those of the recorded run, whatever failed in it, and at its end the recording is played once.
-/
namespace Tabletop

/-- Every recorded value is the face of some die. -/
def Recorded.OfDice {σ : Type} (recorded : Recorded σ) : Prop :=
  ∀ value ∈ recorded.drawn, 1 ≤ value ∧ value ≤ Faces.greatest

namespace Session

variable {σ α : Type} [DiceSource σ]

/-- All values that a run from the start draws, in order. -/
def drawnBy (limit : Option Nat) (source : σ) (actions : List (Action α)) : List Nat :=
  ((start limit (Recorded.mk source [])).finish actions).source.drawn

theorem drawn_prefix_throwDice (session : Session (Recorded σ)) (dice : Count) (die : Die) :
    session.source.drawn <+: (session.throwDice dice die).2.source.drawn := by
  obtain ⟨e, -, hthrow⟩ | ⟨budget, after, rolls, -, -, -, hthrow⟩ :=
    session.throwDice_recorded dice die
  · exact ⟨[], by rw [hthrow, List.append_nil]⟩
  · exact ⟨rolls, by rw [hthrow]⟩

theorem ofDice_throwDice {session : Session (Recorded σ)} (h : session.source.OfDice) (dice : Count)
    (die : Die) : (session.throwDice dice die).2.source.OfDice := by
  obtain ⟨e, -, hthrow⟩ | ⟨budget, after, rolls, -, -, hshow, hthrow⟩ :=
    session.throwDice_recorded dice die
  · rw [hthrow]
    exact h
  · rw [hthrow]
    intro value hvalue
    obtain hold | hnew := List.mem_append.1 hvalue
    · exact h value hold
    · have hface := hshow value hnew
      exact ⟨hface.1, Nat.le_trans hface.2 die.faces.le_greatest⟩

theorem drawnBy_bounds (limit : Option Nat) (source : σ) (actions : List (Action α)) :
    ∀ value ∈ drawnBy limit source actions, 1 ≤ value ∧ value ≤ Faces.greatest := by
  have hstart : (start limit (Recorded.mk source [])).source.OfDice :=
    fun value hvalue => absurd hvalue List.not_mem_nil
  exact finish_keeps (P := fun session : Session (Recorded σ) => session.source.OfDice)
    (fun session dice die h => ofDice_throwDice h dice die) (fun session h => h) hstart actions

end Session

/-- A replayed session is as far in the recording as the recorded one has come in drawing it. -/
structure InRecording {σ : Type} (recording : List Nat) (session : Session (Recorded σ))
    (replayed : Session Replay) : Prop where
  budget : session.budget = replayed.budget
  draws : replayed.source.draws = recording.toArray
  played : replayed.source.played = session.source.drawn.length

namespace InRecording

variable {σ : Type} {recording : List Nat} {session : Session (Recorded σ)} {replayed : Session Replay}

theorem reset (h : InRecording recording session replayed) :
    InRecording recording session.reset replayed.reset :=
  ⟨congrArg Budget.reset h.budget, h.draws, h.played⟩

/-- What the request adds to the record is what the recording gives next. -/
theorem throwDice [DiceSource σ] (h : InRecording recording session replayed) (dice : Count) (die : Die)
    (hwithin : (session.throwDice dice die).2.source.drawn <+: recording) :
    ResultsAlike (· = ·) (session.throwDice dice die).1 (replayed.throwDice dice die).1 ∧
      InRecording recording (session.throwDice dice die).2 (replayed.throwDice dice die).2 := by
  obtain ⟨e, hcharge, hthrow⟩ | ⟨budget, after, rolls, hcharge, hlength, hshow, hthrow⟩ :=
    session.throwDice_recorded dice die
  · rw [h.budget] at hcharge
    rw [hthrow, Session.throwDice_of_charge_error hcharge]
    exact ⟨.error e, h⟩
  · rw [hthrow] at hwithin ⊢
    obtain ⟨rest, hrest⟩ := hwithin
    have hdraws := h.draws
    rw [← hrest] at hdraws
    have hreplayed := Replay.rollMany_of_recorded hdraws h.played hshow
    rw [hlength] at hreplayed
    rw [h.budget] at hcharge
    rw [Session.throwDice_of_charge_ok hcharge, hreplayed]
    exact ⟨.ok rfl, rfl, h.draws, rfl⟩

end InRecording

/-- Sessions are compared as long as they have drawn the beginning of the recording. -/
def Matching.replaying (σ : Type) [DiceSource σ] (recording : List Nat) :
    Matching (Recorded σ) Replay where
  toLikeness := .same
  sessions := InRecording recording
  within session := session.source.drawn <+: recording
  within_of_throwDice h := (Session.drawn_prefix_throwDice _ _ _).trans h
  within_of_reset h := h
  throwDice dice die h hwithin := h.throwDice dice die hwithin
  reset h := h.reset

namespace Session

variable {σ α : Type} [DiceSource σ]

/-- The values that a run draws are faces of dice, and a replay of them drives the run again: after
each action the outcome and the count of the budget are the same, and all of the recording is
played in the end. -/
theorem replay_repeats_run (limit : Option Nat) (source : σ) (actions : List (Action α))
    (hdrawn : drawnBy limit source actions ≠ []) :
    ((start limit (Recorded.mk source [])).run actions).map (Prod.map id forget) =
      (start limit source).run actions ∧
    (∀ value ∈ drawnBy limit source actions, 1 ≤ value ∧ value ≤ Faces.greatest) ∧
    ∃ replay, Replay.ofList? (drawnBy limit source actions) = some replay ∧
      ((start limit replay).run actions).map (Prod.map id budget) =
        ((start limit source).run actions).map (Prod.map id budget) ∧
      ((start limit replay).finish actions).source.played =
        (drawnBy limit source actions).length := by
  have hplain : ((start limit (Recorded.mk source [])).run actions).map (Prod.map id forget) =
      (start limit source).run actions :=
    (run_forget (start limit (Recorded.mk source [])) actions).symm
  refine ⟨hplain, drawnBy_bounds limit source actions, ?_⟩
  rw [← hplain, List.map_map]
  have hsize : 0 < (drawnBy limit source actions).toArray.size := List.length_pos_of_ne_nil hdrawn
  let replay : Replay := ⟨(drawnBy limit source actions).toArray, hsize, 0⟩
  let recording := Matching.replaying σ (drawnBy limit source actions)
  have hmatch : recording.sessions (start limit ⟨source, []⟩) (start limit replay) := ⟨rfl, rfl, rfl⟩
  have hwithin : recording.within ((start limit ⟨source, []⟩).finish actions) := List.prefix_rfl
  refine ⟨replay, Replay.ofList?_eq_some_iff.2 ⟨rfl, rfl⟩, ?_, ?_⟩
  · exact (recording.map_run_eq hmatch Likeness.same_exact actions hwithin fun _ _ h => h.budget).symm
  · exact (recording.run hmatch actions (fun _ _ _ => Likeness.same_exact) hwithin).2.played

/-- A line whose second expression four dice do not allow, a text that cannot be read, and after a
reset a roll on a table. -/
def stoppedHalfWay : List (Action Unit) :=
  [.rollLine "2d6, 3d8kh2".toList, .roll "0d6".toList, .reset,
    .rollOn "1d20+d".toList ⟨[⟨.ofRange (.atLeast ⟨10, by decide, by decide⟩), ()⟩], by decide⟩]

/-- The second word on the tape is passed over. -/
def fourWords : WordTape :=
  ⟨[0x60000000, 0xFFFFFFFF, 0x90000000, 0x80000000], 0⟩

theorem replay_repeats_stoppedHalfWay :
    drawnBy (some 4) fourWords stoppedHalfWay = [3, 4, 13] ∧
    ∃ replay, Replay.ofList? [3, 4, 13] = some replay ∧
      ((start (some 4) replay).run stoppedHalfWay).map (Prod.map id budget) =
        ((start (some 4) fourWords).run stoppedHalfWay).map (Prod.map id budget) ∧
      ((start (some 4) replay).finish stoppedHalfWay).source.played = 3 := by
  have hdrawn : drawnBy (some 4) fourWords stoppedHalfWay = [3, 4, 13] := by decide +kernel
  have hne : drawnBy (some 4) fourWords stoppedHalfWay ≠ [] := by
    rw [hdrawn]
    exact List.cons_ne_nil 3 [4, 13]
  obtain ⟨-, -, replay, hreplay, hruns, hplayed⟩ := replay_repeats_run (some 4) fourWords stoppedHalfWay hne
  rw [hdrawn] at hreplay hplayed
  exact ⟨hdrawn, replay, hreplay, hruns, hplayed⟩

end Session

end Tabletop
