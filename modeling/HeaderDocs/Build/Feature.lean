import HeaderDocs.Text.Blank
import HeaderDocs.Text.Lowercase

/-!
The features that a build of the library can switch on, and the tables that say what each stands
for: document handlers, fonts, optional components, instruction sets and system libraries.
-/

namespace HeaderDocs.Build

/-- Document handlers that are compiled in only when their feature is on: the feature, and its name
in defines. -/
def capabilities : List (String × String) :=
  [("xps", "XPS"), ("svg", "SVG"), ("cbz", "CBZ"), ("img", "IMG"), ("html", "HTML"),
    ("epub", "EPUB"),
    ("js", "JS")]

def skippedFonts : List String :=
  ["TOFU", "TOFU_CJK", "TOFU_NOTO", "TOFU_SYMBOL", "TOFU_EMOJI", "TOFU_SIL"]

def optionalComponents : List (String × String) :=
  [("tesseract", "TESSERACT"), ("libarchive", "LIBARCHIVE"), ("zxingcpp", "ZXINGCPP")]

/-- An instruction set of the target: how the compiler and the makefile name it, and the define that
tells whether it is there, for the sets that have one. -/
structure InstructionSet where
  feature : String
  compilerFlag : String
  setting : String
  define : Option String := none
deriving DecidableEq, Repr

def instructionSets : List InstructionSet :=
  [⟨"sse4.1", "-msse4.1", "HAVE_SSE4_1", some "ARCH_HAS_SSE"⟩,
    ⟨"avx", "-mavx", "HAVE_AVX", none⟩,
    ⟨"avx2", "-mavx2", "HAVE_AVX2", none⟩,
    ⟨"fma", "-mfma", "HAVE_FMA", none⟩,
    ⟨"neon", "-mfpu=neon", "HAVE_NEON", some "ARCH_HAS_NEON"⟩]

structure SystemLibrary where
  name : String
  setting : String
  packages : List String
  /-- The feature for all system libraries covers it. -/
  inBlanket : Bool := true
  /-- The component that it belongs to, if it is of use to one only. -/
  requires : Option String := none
  /-- There is no copy of it in the source tree. -/
  always : Bool := false
deriving DecidableEq, Repr

def systemLibraries : List SystemLibrary :=
  [{ name := "freetype", setting := "FREETYPE", packages := ["freetype2"] },
    { name := "gumbo", setting := "GUMBO", packages := ["gumbo"] },
    { name := "harfbuzz", setting := "HARFBUZZ", packages := ["harfbuzz"] },
    { name := "jbig2dec", setting := "JBIG2DEC", packages := ["jbig2dec"] },
    { name := "jpegxr", setting := "JPEGXR", packages := ["jpegxr"], inBlanket := false },
    { name := "lcms2", setting := "LCMS2", packages := ["lcms2"], inBlanket := false },
    { name := "libjpeg", setting := "LIBJPEG", packages := ["libjpeg"] },
    { name := "openjpeg", setting := "OPENJPEG", packages := ["libopenjp2"] },
    { name := "zlib", setting := "ZLIB", packages := ["zlib"] },
    { name := "leptonica", setting := "LEPTONICA", packages := ["lept"],
      requires := some "tesseract" },
    { name := "tesseract", setting := "TESSERACT", packages := ["tesseract"],
      requires := some "tesseract" },
    { name := "zxingcpp", setting := "ZXINGCPP", packages := ["zxing"],
      requires := some "zxingcpp" },
    { name := "libarchive", setting := "LIBARCHIVE", packages := ["libarchive"],
      requires := some "libarchive", always := true },
    { name := "brotli", setting := "BROTLI", packages := ["libbrotlidec", "libbrotlienc"] }]

def blanketFeature : String :=
  "sys-lib"

def SystemLibrary.feature (library : SystemLibrary) : String :=
  "sys-lib-" ++ library.name

def knownFeatures : List String :=
  capabilities.map Prod.fst ++ optionalComponents.map Prod.fst ++ ["all-fonts", blanketFeature] ++
    (systemLibraries.filter fun library => !library.always).map SystemLibrary.feature

def normalizeFeature (name : String) : String :=
  String.ofList ((Text.lower (Text.trim name.toList)).map fun c => if c = '_' then '-' else c)

end HeaderDocs.Build
