/-
ImportChain.Proofs.Chain.Shape — the forms in which the loaders of a chain
are printed.

Options may be printed in full, as JSON, which nothing reads back. No chain
has such a loader: whoever writes structured options, a rule or a
reference, gives them an identity, and nothing else has one
(`shaped_of_defaultResolver`). The statement covers the modules of a
factory whose hooks nobody has tapped.
-/
import ImportChain.Proofs.Factory.Identifier

namespace ImportChain

/-! ## Loaders -/

namespace ResolvedLoader

/-- A path without a query, an identity for structured options only, and one
of the three printed forms `path`, `path?query` and `path??ident`. -/
structure Shaped (loader : ResolvedLoader) : Prop where
  path : '?' ∉ loader.path.toList
  ident : loader.ident.isSome ↔ ∃ fields, loader.options = .structured fields
  query : ∀ query, loader.options = .inline query → query ≠ ""
  printed : loader.options = .absent ∧ loader.toIdent = loader.path
    ∨ (∃ query, loader.options = .inline query ∧ query ≠ ""
        ∧ loader.toIdent = loader.path ++ "?" ++ query)
    ∨ ∃ fields ident, loader.options = .structured fields ∧ loader.ident = some ident
        ∧ loader.toIdent = loader.path ++ "??" ++ ident

theorem Regular.shaped {loader : ResolvedLoader} (h : loader.Regular) : loader.Shaped := by
  obtain ⟨path, options, ident⟩ := loader
  obtain ⟨hpath, hoptions⟩ := h
  cases hoptions with
  | absent => exact ⟨hpath, ⟨nofun, nofun⟩, nofun, .inl ⟨rfl, rfl⟩⟩
  | @inline query hne =>
    exact ⟨hpath, ⟨nofun, nofun⟩, fun _ he => LoaderOptions.inline.inj he ▸ hne,
      .inr (.inl ⟨query, rfl, hne, rfl⟩)⟩
  | structured fields ident =>
    exact ⟨hpath, ⟨fun _ => ⟨fields, rfl⟩, fun _ => rfl⟩, nofun,
      .inr (.inr ⟨fields, ident, rfl, rfl, rfl⟩)⟩

end ResolvedLoader

/-! ## Chains and modules -/

open Factory

/-- Every loader that the default resolver gives, for any rules and any
delegate, and every loader of a module that is made of what it gives, has
one of the three printed forms: its options are not printed as JSON. -/
theorem shaped_of_defaultResolver {σ : Type} {s : Setup} {rules : List Rule}
    (hrules : RuleSet.compile rules = .ok s.rules) :
    (∀ (r : ImportRequest) (b : Bench σ) (d : ResolvedImport),
        (defaultResolver s r b).1 = .ok (some (.data d)) →
        ∀ loader ∈ d.descriptor.loaders, loader.Shaped)
      ∧ ∀ (t : FactorySetup) (f : Factory σ) (alive : Nat → Bool) (r : ImportRequest)
        (m : Shared Module) (d : ModuleDescriptor), t.toSetup = s → Session t f →
        (create t alive r f).1 = .ok (some m) → m.value = .normal d →
        ∀ loader ∈ d.loaders, loader.Shaped := by
  constructor
  · intro r b d hd loader hl
    obtain ⟨c, p, g, hc, rfl⟩ := defaultResolver_eq_data hd
    exact (Setup.regular_of_resolve hrules hc loader hl).shaped
  · intro t f alive r m d ht hf hm hd loader hl
    have hmakes := hf.makes_of_create hm
    rw [hd, ht] at hmakes
    obtain ⟨q, c, p, g, hc, rfl⟩ := hmakes
    exact (Setup.regular_of_resolve hrules hc loader hl).shaped

/-- All three printed forms, given by the resolver and by a new factory. -/
theorem shaped_of_defaultResolver_of_sheetRequest :
    ∃ d m d', (defaultResolver anchoredSetup sheetRequest builtinBench).1 = .ok (some (.data d))
      ∧ d.descriptor.loaders.map ResolvedLoader.toIdent
        = ["/app/a-loader?x", "/app/b-loader??ref--0-1", "/app/src/y-loader?z", "/app/c-loader",
          "/app/d-loader"]
      ∧ (∀ loader ∈ d.descriptor.loaders, loader.Shaped)
      ∧ (create anchoredFactorySetup (fun _ => true) sheetEdge plainFactory).1 = .ok (some m)
      ∧ m.value = .normal d' ∧ d'.loaders = sheetLoaders
      ∧ ∀ loader ∈ d'.loaders, loader.Shaped := by
  have hgives : ((defaultResolver anchoredSetup sheetRequest builtinBench).1.toOption.bind
      fun found => found.bind Resolved.descriptor?).map
        (fun descriptor => descriptor.loaders.map ResolvedLoader.toIdent)
      = some ["/app/a-loader?x", "/app/b-loader??ref--0-1", "/app/src/y-loader?z",
          "/app/c-loader", "/app/d-loader"] := by decide +kernel
  have hmakes : chainOf? (create anchoredFactorySetup (fun _ => true) sheetEdge plainFactory).1
      = some (sheetLoaders, "/app/src/./b.css", sheetCompound) := by decide +kernel
  obtain ⟨d, hd, hprinted⟩ := Resolved.exists_data_of_descriptor? hgives
  obtain ⟨m, d', hm, hd', hl, -, -⟩ := exists_normal_of_chainOf? hmakes
  exact ⟨d, m, d', hd, hprinted,
    (shaped_of_defaultResolver compile_layeredRules).1 sheetRequest builtinBench d hd, hm, hd', hl,
    (shaped_of_defaultResolver compile_layeredRules).2 anchoredFactorySetup plainFactory _
      sheetEdge m d' rfl (session_plainFactory _) hm hd'⟩

end ImportChain
