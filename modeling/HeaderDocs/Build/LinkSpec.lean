/-!
What a program that uses the library has to be linked with, and the lines that tell the package
manager so.
-/

namespace HeaderDocs.Build

structure LinkSpec where
  searchPaths : List String := []
  staticLibraries : List String := []
  dynamicLibraries : List String := []
deriving DecidableEq, Repr

def LinkSpec.directives (spec : LinkSpec) : List String :=
  (spec.searchPaths.map ("cargo:rustc-link-search=native=" ++ ·)) ++
    (spec.staticLibraries.map ("cargo:rustc-link-lib=static=" ++ ·)) ++
    spec.dynamicLibraries.map ("cargo:rustc-link-lib=dylib=" ++ ·)

end HeaderDocs.Build
