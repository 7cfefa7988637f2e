import ServiceManual.Raw.Reading

/-!
# Configuration

What a project can choose about its documents: the directory they are written to, whether they
carry a banner, and how many of them are made at a time.
-/

namespace ServiceManual

/-- How the work is done. -/
structure WorkSettings where
  maxWorkers : Int := 1
  deriving DecidableEq, Repr

/-- The configuration of a project. -/
structure Configuration where
  outputDir : String := "docs"
  banner : Bool := true
  settings : WorkSettings := {}
  deriving DecidableEq, Repr

open Raw Checked

/-- A number of workers, at least one. -/
def readWorkers (value : Raw) : Checked Int :=
  (readInteger value).andThen fun workers =>
    if 1 ≤ workers then .valid workers else refuse (.belowMinimum 1)

/-- Read how the work is done. -/
def WorkSettings.read : Raw → Checked WorkSettings :=
  readModel "DocsSettings" fun fields =>
    WorkSettings.mk <$> optionalField "max_workers" 1 readWorkers fields

/-- Read a configuration. -/
def Configuration.read : Raw → Checked Configuration :=
  readModel "DocsConfig" fun fields =>
    Configuration.mk <$> optionalField "output_dir" "docs" readText fields <*>
      optionalField "banner" true readFlag fields <*>
      optionalField "settings" {} WorkSettings.read fields

/-- The raw value of a configuration. -/
def Configuration.write (configuration : Configuration) : Raw :=
  .ofFields [("output_dir", .text configuration.outputDir),
    ("banner", .scalar (.flag configuration.banner)),
    ("settings", .ofFields [("max_workers",
      .scalar (.integer configuration.settings.maxWorkers))])]

end ServiceManual
