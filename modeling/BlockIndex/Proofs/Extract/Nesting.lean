import BlockIndex.Proofs.Extract.Scope

/-! The blocks of a Python file nest.  Of two blocks the later one either starts after the earlier one
has ended or lies within it, and then its header is indented deeper. -/

namespace BlockIndex.Extract.Python

open Text

variable {ls : List String} {s : Site}

/-- The line of a declaration is not blank, and the body ends where the indentation of that line
says. -/
theorem endsIndented_of_siteAt? (h : language.siteAt? ls s.line = some s) :
    ∃ line, ls[s.line]? = some line ∧ allBlank line.toList = false ∧
      Body.EndsIndented ls s.line (Body.indentation line) (s.last ls) := by
  obtain ⟨line, d, hline, hpass, -, hdecl, hsite⟩ := Language.siteAt?_eq_some_iff.mp h
  have hread : Dialect.python.Reads line := (Dialect.reads_iff List.mem_cons_self).mp hpass
  refine ⟨line, hline, hread.not_blank, ?_⟩
  have hbody : s.declaration.body = .indented := by
    obtain ⟨n, -, rfl⟩ := Option.map_eq_some_iff.mp hdecl
    rw [hsite]
  have hlast : s.last ls = Body.indentedEnd ls s.line (Body.indentation line) := by
    simp only [Site.last, hbody, Body.Rule.finish, hline, Option.map_some, Option.getD_some]
  rw [hlast]
  exact Body.endsIndented_indentedEnd _ (Language.lt_length_of_siteAt? h)

/-- Of two blocks of a Python file the one that starts first ends before the other starts, or
contains it, and then the other is indented deeper. -/
theorem blocks_apart_or_nested (path content : String) {b c : Block}
    (hb : b ∈ language.blocks path content) (hc : c ∈ language.blocks path content) (hne : b ≠ c)
    (hle : b.span.first ≤ c.span.first) :
    b.span.first < c.span.first ∧
      (b.span.last < c.span.first ∨ c.span.last ≤ b.span.last ∧
        ∃ l m, (lines content)[b.span.first - 1]? = some l ∧
          (lines content)[c.span.first - 1]? = some m ∧
          Body.indentation l < Body.indentation m) := by
  obtain ⟨s, hs, rfl⟩ := Language.mem_blocks_iff.mp hb
  obtain ⟨t, ht, rfl⟩ := Language.mem_blocks_iff.mp hc
  obtain ⟨l, hl, -, hends⟩ := endsIndented_of_siteAt? hs
  obtain ⟨m, hm, hshown, hends'⟩ := endsIndented_of_siteAt? ht
  have hlines : s.line ≠ t.line := by
    intro hsame
    rw [← hsame, hs] at ht
    exact hne (congrArg _ (Option.some.inj ht))
  have hlt : s.line < t.line := Nat.lt_of_le_of_ne (Nat.le_of_succ_le_succ hle) hlines
  refine ⟨Nat.succ_lt_succ hlt, ?_⟩
  rcases Nat.lt_or_ge (s.last (lines content)) t.line with hapart | hwithin
  · exact .inl (Nat.succ_lt_succ hapart)
  · obtain ⟨hlast, hdeep⟩ := hends.nests hends' hm hshown hlt hwithin
    exact .inr ⟨Nat.succ_le_succ hlast, l, m, hl, hm, Int.ofNat_lt.mp hdeep⟩

/-- A function within another one, with blank lines at its end, and a function after both. -/
theorem blocks_apart_or_nested_sample :
    let text := "def f():\n    def g():\n\n\t pass\n\n    x\n\ndef h():\n  y"
    ∃ f ∈ language.blocks "n.py" text, ∃ g ∈ language.blocks "n.py" text,
      ∃ h ∈ language.blocks "n.py" text, f ≠ g ∧ f.span.first ≤ g.span.first ∧
        f ≠ h ∧ f.span.first ≤ h.span.first ∧ g.span.last ≤ f.span.last ∧
        f.span.last < h.span.first := by
  intro text
  have hblocks : ∃ f ∈ language.blocks "n.py" text, ∃ g ∈ language.blocks "n.py" text,
      ∃ h ∈ language.blocks "n.py" text, f ≠ g ∧ f.span.first ≤ g.span.first ∧
        f ≠ h ∧ f.span.first ≤ h.span.first ∧ g.span.first ≤ f.span.last ∧
        f.span.last < h.span.last := by decide +kernel
  obtain ⟨f, hf, g, hg, h, hh, hfg, hle, hfh, hle', hstart, hend⟩ := hblocks
  refine ⟨f, hf, g, hg, h, hh, hfg, hle, hfh, hle', ?_, ?_⟩
  · rcases (blocks_apart_or_nested "n.py" text hf hg hfg hle).2 with hapart | hnested
    · omega
    · exact hnested.1
  · rcases (blocks_apart_or_nested "n.py" text hf hh hfh hle').2 with hapart | hnested
    · exact hapart
    · omega

end BlockIndex.Extract.Python
