import ClientRoster.Whois
import ClientRoster.Json.Layout

/-!
# `ClientRoster.Whois.Json` — registration data in documents

What is known stands in the document under its name; what is unknown is left out, and may be given as `null`.
-/

namespace ClientRoster.Whois

open Json

/-- Registration data as a document. -/
def toDoc (w : Whois) : Doc :=
  .record ([("city", w.city), ("country", w.country), ("orgname", w.orgname)].filterMap
    fun field => field.2.map fun value => (field.1, .text value))

/-- How documents hold registration data. -/
def layout : Layout Whois where
  expected := "struct WhoisInfo"
  fields := [
    ⟨"city", fun d w => do .ok { w with city := ← d.asOptionalText }⟩,
    ⟨"country", fun d w => do .ok { w with country := ← d.asOptionalText }⟩,
    ⟨"orgname", fun d w => do .ok { w with orgname := ← d.asOptionalText }⟩]

/-- Reads registration data while its text is being read. -/
def ofText (text : String) : Read Whois := readText (layout.readInPlace empty) text.toList

end ClientRoster.Whois
