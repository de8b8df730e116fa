import WhaleShark.Gateway.Configuration

/-!
# A power failure while the configuration is written

Writing the configuration erases the page and programs 68 words. The only mark of a configuration is
its first byte, which is programmed with the first word. So a page on which the first words stand
and the rest is erased is taken for a configuration, when the power fails before the last word
(`torn_configuration_is_loaded`). What is loaded is the old configuration, the new one or the
factory defaults exactly when nothing or everything was programmed, or the new configuration has no
watermark, or the torn one is by chance the old or the new one (`loaded_whole_iff`).
-/

set_option autoImplicit false

namespace WhaleShark

open Foundations

/-- The words that `FlashWrite` programs. -/
def configWords : ℕ := (configSize + 3) / 4

/-- When the power fails in `FlashWrite`: before the erasure, or when a number of words has been
programmed behind it. -/
inductive PowerFailure where
  | beforeErase
  | programmed (words : ℕ) (few : words ≤ configWords)

/-- The page at the power failure, where `page` stood before and `cfg` is written. -/
def pageAt (page : FlashPage) (cfg : Config) (behind : Behind) : PowerFailure → FlashPage
  | .beforeErase => page
  | .programmed words _ => programmed (cfg.memory behind) words

/-- The last page is the one that `FlashWrite` leaves. -/
theorem pageAt_last (s : Configuration) (behind : Behind) :
    pageAt s.page s.cfg behind (.programmed configWords le_rfl) =
      (Configuration.store behind s).1.page := by
  rw [store_eq]
  rfl

/-- What is loaded at the next start is the old configuration, the new one or the factory
defaults. -/
def LoadedWhole (page : FlashPage) (cfg : Config) (behind : Behind) (failure : PowerFailure) : Prop :=
  ∀ behind' ram, (initConfiguration behind' ⟨ram, pageAt page cfg behind failure⟩).1.cfg ∈
    [storedIn page, cfg, factoryConfig]

/-- The first words of the new configuration, with erased bytes behind. -/
def tornCells (cfg : Config) (words : ℕ) : List UInt8 :=
  cfg.cells.take (4 * words) ++ List.replicate (configSize - 4 * words) 0xFF

/-- The power fails before the erasure, before the first word or behind the last one; or the new
configuration has no watermark; or its first words with erased bytes behind are the new or the old
configuration. -/
def Harmless (page : FlashPage) (cfg : Config) : PowerFailure → Prop
  | .beforeErase => True
  | .programmed words _ =>
      words = 0 ∨ words = configWords ∨ cfg.get .waterMark ≠ [watermarkValue] ∨
        cfg.cells = tornCells cfg words ∨ (storedIn page).cells = tornCells cfg words

theorem loadedWhole_iff_mem (page : FlashPage) (cfg : Config) (behind : Behind)
    (failure : PowerFailure) : LoadedWhole page cfg behind failure ↔
      loadedFrom (pageAt page cfg behind failure) ∈ [storedIn page, cfg, factoryConfig] := by
  simp only [LoadedWhole, initConfiguration_cfg]
  exact ⟨fun each => each (0, 0) factoryConfig, fun loaded _ _ => loaded⟩

theorem get_waterMark_eq (cfg : Config) : cfg.get .waterMark = cfg.cells.take 1 := rfl

/-- A page is loaded as it stands, or gives the factory defaults. -/
theorem loadedFrom_cases (page : FlashPage) :
    loadedFrom page = storedIn page ∨ loadedFrom page = factoryConfig := by
  unfold loadedFrom
  split
  · exact .inl rfl
  · exact .inr rfl

/-- The first word brings the watermark. -/
theorem take_one_tornCells (cfg : Config) {words : ℕ} (some_ : 0 < words) :
    (tornCells cfg words).take 1 = cfg.get .waterMark := by
  have first : 1 ≤ (cfg.cells.take (4 * words)).length := by
    rw [List.length_take, cfg.length_cells]
    simp only [configSize]
    omega
  rw [tornCells, List.take_append_of_le_length first, List.take_take, Nat.min_eq_left (by omega)]
  rfl

/-- The last byte of the factory defaults is not erased. -/
theorem tornCells_ne_factory (cfg : Config) {words : ℕ} (torn : words < configWords) :
    tornCells cfg words ≠ factoryConfig.cells := by
  intro same
  have few : 0 < configSize - 4 * words := by
    simp only [configWords, configSize] at torn ⊢
    omega
  have last : (tornCells cfg words).getLast? = some 0xFF := by
    rw [tornCells, List.getLast?_append, List.getLast?_replicate, if_neg (by omega)]
    rfl
  have default_ : factoryConfig.cells.getLast? = some 0x30 := by decide +kernel
  rw [same, default_] at last
  exact absurd last (by decide)

/-- **The configuration is loaded whole exactly when the power failure is harmless.** -/
theorem loaded_whole_iff (page : FlashPage) (cfg : Config) (behind : Behind)
    (failure : PowerFailure) :
    LoadedWhole page cfg behind failure ↔ Harmless page cfg failure := by
  rw [loadedWhole_iff_mem]
  cases failure with
  | beforeErase =>
      refine iff_of_true ?_ trivial
      rcases loadedFrom_cases page with stored | factory
      · simp [pageAt, stored]
      · simp [pageAt, factory]
  | programmed words few =>
      have torn : (storedIn (programmed (cfg.memory behind) words)).cells = tornCells cfg words :=
        cells_storedIn_programmed cfg behind few
      have marks : (storedIn (programmed (cfg.memory behind) words)).get .waterMark =
          (tornCells cfg words).take 1 := by rw [get_waterMark_eq, torn]
      simp only [Harmless, pageAt, loadedFrom, marks]
      rcases Nat.eq_zero_or_pos words with rfl | some_
      · -- all is erased
        have erased : (tornCells cfg 0).take 1 ≠ [watermarkValue] := by
          simp only [tornCells, Nat.mul_zero, List.take_zero, List.nil_append]
          decide
        rw [if_neg erased]
        exact iff_of_true (by simp) (.inl rfl)
      rw [take_one_tornCells cfg some_]
      rcases Nat.eq_or_lt_of_le few with rfl | short
      · -- all is programmed
        rw [show storedIn (programmed (cfg.memory behind) configWords) = cfg from
          storedIn_programmed cfg behind]
        exact iff_of_true (by split <;> simp) (.inr (.inl rfl))
      by_cases mark : cfg.get .waterMark = [watermarkValue]
      · have other := tornCells_ne_factory cfg short
        have same (c : Config) : storedIn (programmed (cfg.memory behind) words) = c ↔
            c.cells = tornCells cfg words := by
          rw [← torn]
          exact ⟨fun here => here ▸ rfl, fun here => Block.ext_cells here.symm⟩
        have cut : words ≠ 0 ∧ words ≠ configWords := ⟨by omega, by omega⟩
        rw [if_pos mark]
        simp only [List.mem_cons, List.not_mem_nil, or_false, same, mark, cut.1, cut.2, false_or,
          ne_eq, not_true_eq_false, eq_comm (a := factoryConfig.cells), other]
        exact or_comm
      · rw [if_neg mark]
        exact iff_of_true (by simp) (.inr (.inr (.inl mark)))

/-- A configuration in use: the factory defaults with an address. -/
def configInUse : Config := factoryConfig.write ConfigField.localIp.offset (text "192.168.0.10")

/-- The page that holds it. -/
def pageInUse : FlashPage := programmed (configInUse.memory (0, 0)) configWords

/-- **A torn configuration is loaded.** The configuration is written with another name of the
network, and the power fails behind the third word: the name is the new one as far as it came, and
all the rest is erased. -/
theorem torn_configuration_is_loaded : ∃ cfg : Config,
    cfg = configInUse.write ConfigField.apSSID.offset (text "OTHER_AP") ∧
      ¬ LoadedWhole pageInUse cfg (0, 0) (.programmed 3 (by decide)) ∧
      (loadedFrom (pageAt pageInUse cfg (0, 0) (.programmed 3 (by decide)))).get .localIp =
        List.replicate 16 0xFF := by
  refine ⟨_, rfl, ?_, ?_⟩
  · rw [loadedWhole_iff_mem]
    decide +kernel
  · decide +kernel

end WhaleShark
