import Tangle.Run.Report
import Tangle.Run.Style

namespace Tangle.Run.Report

open Text

def horizontalBar : Text := "─"

def sectionText (colour : Bool) (base : Base) (verb : Text) (paths : List Text) : Text :=
  if paths = [] then []
  else
    unlines ((Style.count.render colour (Decimal.ofNat paths.length) ++ " " ++
        Style.dim.render colour verb) ::
      paths.map fun p => "  " ++ Style.path.render colour (base.display p))

def problemText (r : Report) (colour : Bool) : Text :=
  unlines (r.diagnostics.map (Style.warning.render colour "warning: " ++ ·.text) ++
    r.failures.map (Style.error.render colour "error: " ++ ·))

def totals (r : Report) (colour : Bool) : Text :=
  Style.count.render colour (Decimal.ofInt r.documents) ++ " " ++
    Style.dim.render colour "documents" ++ ", " ++
    Style.count.render colour (Decimal.ofInt r.filtered) ++ " " ++
    Style.dim.render colour "outputs filtered"

def text (r : Report) (colour : Bool) (base : Base) (dryRun : Bool) : Text :=
  let title : Text := if dryRun then "Literate run (dry run)" else "Literate run"
  let bar := (List.replicate title.length horizontalBar).flatten
  unlines [Style.header.render colour title, Style.divider.render colour bar] ++
    sectionText colour base "written" r.written ++
    sectionText colour base "injected" r.injected ++
    sectionText colour base "imported into" r.imported ++
    sectionText colour base "pulled into" r.pulled ++
    unlines [r.totals colour] ++ r.problemText colour

end Tangle.Run.Report
