import LegalMoves.Proofs.Capabilities
import LegalMoves.Proofs.NoRepetition

set_option autoImplicit false

namespace LegalMoves

theorem Game.contains_capability_noRepeat {g : Game} {kind : Repetition}
    (h : g.noRepeat = some kind) : g.capabilities.contains kind.capability = true := by
  have hconfig : g.config.noRepeat = some kind := h
  rw [Capabilities.contains_iff]
  intro bit hbit
  rw [Game.capabilities, Config.capabilities, Capabilities.has_union, hconfig]
  exact Or.inr hbit

namespace Rule

variable {rule : Rule} {s : Snapshot} {o₁ o₂ : Oracle}

/-- Oracles that say the same of all moves of a rule let it move alike. -/
theorem canMove_congr (h : rule.Faithful)
    (hsame : ∀ m ∈ rule.moves s, o₁.repeats s m = o₂.repeats s m) :
    (rule.canMove o₁ s).value.canMove = (rule.canMove o₂ s).value.canMove := by
  rw [Bool.eq_iff_iff, canMove_eq_true_iff h, canMove_eq_true_iff h]
  exact exists_congr fun m => and_congr_right fun hm => by rw [hsame m hm]

end Rule

namespace Compiled

variable {c : Compiled} {g : Game} {rule : Rule}

theorem noRepeat_of_questions {o : Oracle} {s : Snapshot}
    (h : (c.canMove o s).value.questions ≠ []) : ∃ kind, c.game.noRepeat = some kind := by
  cases hrule : c.game.noRepeat with
  | none =>
    rw [canMove_of_noRepeat_none hrule] at h
    exact absurd rfl h
  | some kind => exact ⟨kind, rfl⟩

theorem noRepeat_of_not_needsHistory (h : (compile g rule).value.needsHistory = false) :
    g.noRepeat = none := by
  by_contra hsome
  have hgame := g.needsHistory_capabilities.mpr hsome
  have hunion : (compile g rule).value.needsHistory = true :=
    Capabilities.needsHistory_union.mpr (Or.inl hgame)
  rw [h] at hunion
  exact absurd hunion (by simp)

/-- Compiled rules that ask for no history answer alike to any two oracles, and put no question to
either. Whether they ask for one or not, oracles that say the same of the legal moves get the same
answer. And rules that question an oracle belong to a game that forbids some kind of repetition, have
asked for that kind and need a history, whatever the leaves of the tree declare. -/
theorem history_provision_sound (g : Game) (rule : Rule) :
    ((compile g rule).value.needsHistory = false →
        ∀ s o₁ o₂, (compile g rule).value.canMove o₁ s = (compile g rule).value.canMove o₂ s) ∧
      ((∀ own ∈ rule.customs, own.StreamsEval) → ∀ s o₁ o₂,
        (∀ m ∈ ((compile g rule).value.legalMoves s).value.moves,
          o₁.repeats s m = o₂.repeats s m) →
        ((compile g rule).value.canMove o₁ s).value.canMove =
          ((compile g rule).value.canMove o₂ s).value.canMove) ∧
      ∀ s o, ((compile g rule).value.canMove o s).value.questions ≠ [] →
        ∃ kind, g.noRepeat = some kind ∧
          (compile g rule).value.capabilities.contains kind.capability = true ∧
          (compile g rule).value.needsHistory = true := by
  refine ⟨fun hneeds s o₁ o₂ => ?_, fun hlaw s o₁ o₂ hsame => ?_, fun s o hasked => ?_⟩
  · have hrule := noRepeat_of_not_needsHistory hneeds
    rw [canMove_of_noRepeat_none hrule, canMove_of_noRepeat_none hrule]
  · have hroot : (compile g rule).value.root.Faithful :=
      Rule.faithful_prepared g fun own hown => Rule.streamsEval_iff_faithful.mp (hlaw own hown)
    cases hrule : (compile g rule).value.game.noRepeat with
    | none => rw [canMove_of_noRepeat_none hrule, canMove_of_noRepeat_none hrule]
    | some kind =>
      rw [canMove_of_noRepeat_some hrule, canMove_of_noRepeat_some hrule]
      exact Rule.canMove_congr hroot hsame
  · obtain ⟨kind, hrule⟩ := noRepeat_of_questions hasked
    have hgame : g.capabilities.contains kind.capability = true :=
      Game.contains_capability_noRepeat hrule
    have hcontains : (compile g rule).value.capabilities.contains kind.capability = true := by
      rw [Capabilities.contains_capability_iff] at hgame ⊢
      rw [capabilities_compile_eq, Capabilities.has_union]
      exact Or.inl hgame
    exact ⟨kind, hrule, hcontains, Capabilities.needsHistory_iff.mpr ⟨kind, hcontains⟩⟩

theorem history_provision_sound_koGame :
    (compile lineOfThree placeOrPass).value.needsHistory = false ∧
      (compile lineOfThree placeOrPass).value.canMove (.asking fun _ _ => true) oneLeft =
        (compile lineOfThree placeOrPass).value.canMove .silent oneLeft ∧
      ((compile koGame placeOrPass).value.canMove (.asking fun _ m => m.origin == none)
          oneLeft).value.canMove = false ∧
      (compile koGame placeOrPass).value.capabilities.contains .repeatPositionalInGame = true ∧
      (compile koGame placeOrPass).value.needsHistory = true := by
  have hlaw : ∀ own ∈ placeOrPass.customs, own.StreamsEval := by
    simp [placeOrPass, Rule.ofParts, Rule.ofLeaf, Rule.customs, Leaf.isCustom]
  have hneeds : (compile lineOfThree placeOrPass).value.needsHistory = false := by decide
  obtain ⟨hfree, -⟩ := history_provision_sound lineOfThree placeOrPass
  obtain ⟨-, hagree, hasked⟩ := history_provision_sound koGame placeOrPass
  have hsame : ∀ m ∈ ((compile koGame placeOrPass).value.legalMoves oneLeft).value.moves,
      (Oracle.asking fun _ m => m.origin == none).repeats oneLeft m =
        (Oracle.asking fun _ _ => true).repeats oneLeft m := by decide
  obtain ⟨kind, hkind, hcontains, hhistory⟩ :=
    hasked oneLeft (.asking fun _ _ => true) (by decide)
  obtain rfl : Repetition.positionalInGame = kind := Option.some.inj hkind
  exact ⟨hneeds, hfree hneeds _ _ _, (hagree hlaw _ _ _ hsame).trans (by decide), hcontains,
    hhistory⟩

end Compiled
end LegalMoves
