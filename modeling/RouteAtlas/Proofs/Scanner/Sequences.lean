import RouteAtlas.Proofs.Scanner.Silence
import RouteAtlas.Proofs.Text.Splitting

/-!
# Texts made of items

Where each item of a text gives its own finds, whatever follows it, the text gives the finds of all
items in their order: `finds_flatMap` for items one behind the other, `findAll_lines` for lines.
`repeated_append` says what a scanner that repeats another reads from items.
-/

namespace RouteAtlas

theorem Text.join_concat (sep : Text) (ws : List Text) (w : Text) :
    join sep (ws ++ [w]) = ws.flatMap (· ++ sep) ++ w := by
  induction ws with
  | nil => rfl
  | cons v ws ih =>
    have more : ws ++ [w] ≠ [] := List.append_ne_nil_of_right_ne_nil ws (List.cons_ne_nil w [])
    obtain ⟨next, others, split⟩ := List.exists_cons_of_ne_nil more
    rw [List.cons_append, split, join_cons_cons, ← split, ih, List.flatMap_cons,
      List.append_assoc, List.append_assoc]

namespace Scanner

variable {α ι : Type} {s : Scanner α} {items : List ι} {text : ι → Text} {result : ι → List α}

/-! ### Finds -/

/-- What stands before an item may matter to its first read: `edge` holds of it before each item. -/
theorem finds_flatMap {edge : Option Char → Prop}
    (step : ∀ i ∈ items, ∀ b t, edge b → ∃ b', edge b' ∧
      finds (piecesAt s ⟨b, text i ++ t⟩) = result i ++ finds (piecesAt s ⟨b', t⟩))
    {b : Option Char} (start : edge b) (t : Text) : ∃ b', edge b' ∧
      finds (piecesAt s ⟨b, items.flatMap text ++ t⟩) =
        items.flatMap result ++ finds (piecesAt s ⟨b', t⟩) := by
  induction items generalizing b with
  | nil => exact ⟨b, start, rfl⟩
  | cons i items ih =>
    obtain ⟨b', next, here⟩ := step i List.mem_cons_self b (items.flatMap text ++ t) start
    obtain ⟨b'', last, later⟩ := ih (fun j member => step j (List.mem_cons_of_mem i member)) next
    refine ⟨b'', last, ?_⟩
    rw [List.flatMap_cons, List.flatMap_cons, List.append_assoc, List.append_assoc, here, later]

theorem finds_items
    (step : ∀ i ∈ items, ∀ b t, ∃ b',
      finds (piecesAt s ⟨b, text i ++ t⟩) = result i ++ finds (piecesAt s ⟨b', t⟩))
    (b : Option Char) (t : Text) : ∃ b',
    finds (piecesAt s ⟨b, items.flatMap text ++ t⟩) =
      items.flatMap result ++ finds (piecesAt s ⟨b', t⟩) := by
  have anywhere (i : ι) (member : i ∈ items) (b : Option Char) (t : Text) (_ : True) : ∃ b', True ∧
      finds (piecesAt s ⟨b, text i ++ t⟩) = result i ++ finds (piecesAt s ⟨b', t⟩) := by
    obtain ⟨b', here⟩ := step i member b t
    exact ⟨b', trivial, here⟩
  obtain ⟨b', _, found⟩ := finds_flatMap (b := b) anywhere trivial t
  exact ⟨b', found⟩

theorem findAll_flatMap
    (step : ∀ i ∈ items, ∀ b t, ∃ b',
      finds (piecesAt s ⟨b, text i ++ t⟩) = result i ++ finds (piecesAt s ⟨b', t⟩)) :
    s.findAll (items.flatMap text) = items.flatMap result := by
  obtain ⟨b, found⟩ := finds_items step none []
  have nothing : finds (piecesAt s ⟨b, []⟩) = [] := rfl
  rwa [nothing, List.append_nil, List.append_nil] at found

/-- The last line may be ended or not. -/
theorem findAll_lines (break_silent : Silent s ['\n'])
    (step : ∀ i ∈ items, ∀ b t, Stops (· != '\n') t → ∃ b',
      finds (piecesAt s ⟨b, text i ++ t⟩) = result i ++ finds (piecesAt s ⟨b', t⟩)) :
    s.findAll (Text.join ['\n'] (items.map text)) = items.flatMap result ∧
      s.findAll (items.flatMap fun i => text i ++ ['\n']) = items.flatMap result := by
  have ended (i : ι) (member : i ∈ items) (b : Option Char) (t : Text) : ∃ b',
      finds (piecesAt s ⟨b, text i ++ ['\n'] ++ t⟩) = result i ++ finds (piecesAt s ⟨b', t⟩) := by
    obtain ⟨b', here⟩ := step i member b (['\n'] ++ t) (stops_cons.mpr (by decide))
    refine ⟨(['\n'] : Text).getLast?.or b', ?_⟩
    rw [List.append_assoc, here, finds_silent break_silent]
  refine ⟨?_, findAll_flatMap ended⟩
  rcases List.eq_nil_or_concat items with rfl | ⟨init, i, rfl⟩
  · rfl
  · rw [List.concat_eq_append] at step ended ⊢
    obtain ⟨b, before⟩ :=
      finds_items (fun j member => ended j (List.mem_append_left [i] member)) none (text i)
    obtain ⟨b', last⟩ := step i (by simp) b [] (stops_nil _)
    have whole : Text.join ['\n'] ((init ++ [i]).map text) =
        init.flatMap (fun j => text j ++ ['\n']) ++ text i := by
      rw [List.map_append, List.map_singleton, Text.join_concat, List.flatMap_map]
    have nothing : finds (piecesAt s ⟨b', []⟩) = [] := rfl
    rw [List.append_nil, nothing, List.append_nil] at last
    rw [last] at before
    rw [whole, List.flatMap_append, List.flatMap_singleton]
    exact before

/-! ### Repetition -/

theorem reads_repeated (reads : Reads s) : Reads (repeated s) := by
  have bounded (fuel : Nat) : Reads (repeatGo s fuel) := by
    induction fuel with
    | zero => exact reads_pure []
    | succ fuel ih =>
      intro c as c' found
      rw [repeatGo] at found
      dsimp only at found
      split at found
      · rename_i a mid first
        obtain ⟨w, here⟩ := reads c a mid first
        split at found
        · rename_i more last second
          obtain ⟨_, rfl⟩ := Prod.mk.inj (Option.some.inj found)
          obtain ⟨v, later⟩ := ih mid more last second
          exact ⟨w ++ v, between_trans here later⟩
        · obtain ⟨_, rfl⟩ := Prod.mk.inj (Option.some.inj found)
          exact ⟨w, here⟩
      · obtain ⟨_, rfl⟩ := Prod.mk.inj (Option.some.inj found)
        exact ⟨[], between_refl c⟩
  intro c as c' found
  exact bounded _ c as c' found

theorem repeated_append {value : ι → α} {rest : Text} (nonempty : ∀ i ∈ items, text i ≠ [])
    (reads : ∀ i ∈ items, ∀ b t, ∃ b', s ⟨b, text i ++ t⟩ = some (value i, ⟨b', t⟩))
    (stops : ∀ b, s ⟨b, rest⟩ = none) (b : Option Char) :
    ∃ b', repeated s ⟨b, items.flatMap text ++ rest⟩ = some (items.map value, ⟨b', rest⟩) := by
  have run (fuel : Nat) (enough : items.length ≤ fuel) (b : Option Char) : ∃ b',
      repeatGo s fuel ⟨b, items.flatMap text ++ rest⟩ = some (items.map value, ⟨b', rest⟩) := by
    clear nonempty
    induction items generalizing fuel b with
    | nil =>
      refine ⟨b, ?_⟩
      cases fuel with
      | zero => rfl
      | succ fuel => simp [repeatGo, stops b]
    | cons i items ih =>
      cases fuel with
      | zero => exact absurd enough (by simp)
      | succ fuel =>
        obtain ⟨b', here⟩ := reads i List.mem_cons_self b (items.flatMap text ++ rest)
        obtain ⟨b'', later⟩ := ih (fun j member => reads j (List.mem_cons_of_mem i member)) fuel
          (Nat.le_of_succ_le_succ enough) b'
        refine ⟨b'', ?_⟩
        rw [List.flatMap_cons, List.append_assoc, repeatGo]
        simp only [here, later, List.map_cons]
  -- Each item has a character, so the length of the text is bound enough.
  have enough : items.length ≤ (items.flatMap text ++ rest).length := by
    clear run reads
    induction items with
    | nil => exact Nat.zero_le _
    | cons i items ih =>
      obtain ⟨here, later⟩ := List.forall_mem_cons.mp nonempty
      have first := List.length_pos_iff.mpr here
      have others := ih later
      simp only [List.length_append, List.flatMap_cons, List.length_cons] at others ⊢
      omega
  exact run _ enough b

end Scanner
end RouteAtlas
