import FermiQuiz.Dataset

/-!
# The bundled questions

The questions that are played when no others are given.
-/

namespace FermiQuiz

def bundledQuestions : List Question := [
  {
    prompt :=
      "How many golf balls stacked on top of each other would it take to reach the top of the Eiffel tower?"
    answer := 7728.0
    figures := [
      {
        text := "0.043 m"
        name := "diameter of a golf ball"
        thing := "Golf ball"
        measurement := "length"
        specifier := "diameter" },
      {
        text := "330 m"
        name := "height of the Eiffel tower"
        thing := "Eiffel tower"
        measurement := "length"
        specifier := "height" }]
    quality := 1.0
    measurement := "length"
    style := "ratio"
    generated := "2024-02-11T18:04:51Z" },
  {
    prompt :=
      "How many Earths could fit inside the Sun?"
    answer := 1304000.0
    figures := [
      {
        text := "1.08e21 m^3"
        name := "volume of the Earth"
        thing := "Earth"
        measurement := "volume" },
      {
        text := "1.41e27 m^3"
        name := "volume of the Sun"
        thing := "Sun"
        measurement := "volume" }]
    quality := 1.0
    measurement := "volume"
    style := "ratio"
    generated := "2024-02-11T18:04:51Z" },
  {
    prompt :=
      "How many half-litre water bottles could fit in the trunk of a Toyota Corolla?"
    answer := 742.0
    figures := [
      {
        text := "0.5 L"
        name := "volume of a water bottle"
        thing := "Water bottle"
        measurement := "volume" },
      {
        text := "371 L"
        name := "trunk of a Toyota Corolla"
        thing := "Toyota Corolla"
        measurement := "volume"
        specifier := "trunk" }]
    quality := 1.0
    measurement := "volume"
    style := "ratio"
    generated := "2024-02-11T18:04:51Z" },
  {
    prompt :=
      "How many pennies laid flat would it take to cover Australia?"
    answer := 2.699e16
    figures := [
      {
        text := "2.85e-4 m^2"
        name := "face of a penny"
        thing := "Penny"
        measurement := "surface area"
        specifier := "face" },
      {
        text := "7.69e12 m^2"
        name := "area of Australia"
        thing := "Australia"
        measurement := "surface area" }]
    quality := 1.0
    measurement := "surface area"
    style := "ratio"
    generated := "2024-02-11T18:04:51Z" },
  {
    prompt :=
      "The Titanic weighed as much as how many iPhone batteries?"
    answer := 1113000000.0
    figures := [
      {
        text := "0.047 kg"
        name := "mass of an iPhone battery"
        thing := "iPhone"
        measurement := "mass"
        specifier := "battery" },
      {
        text := "5.23e7 kg"
        name := "mass of the Titanic"
        thing := "Titanic"
        measurement := "mass" }]
    quality := 1.0
    measurement := "mass"
    style := "ratio"
    generated := "2024-02-11T18:04:51Z" },
  {
    prompt :=
      "A blue whale weighs as much as how many house cats?"
    answer := 33330.0
    figures := [
      {
        text := "4.5 kg"
        name := "mass of a house cat"
        thing := "House cat"
        measurement := "mass" },
      {
        text := "150000 kg"
        name := "mass of a blue whale"
        thing := "Blue whale"
        measurement := "mass" }]
    quality := 1.0
    measurement := "mass"
    style := "ratio"
    generated := "2024-02-11T18:04:51Z" },
  {
    prompt :=
      "How many human lifetimes fit into the age of the universe?"
    answer := 189000000.0
    figures := [
      {
        text := "73 yr"
        name := "human life expectancy"
        thing := "Human"
        measurement := "time/age"
        specifier := "lifetime" },
      {
        text := "1.38e10 yr"
        name := "age of the universe"
        thing := "Universe"
        measurement := "time/age"
        specifier := "age" }]
    quality := 1.0
    measurement := "time/age"
    style := "ratio"
    generated := "2024-02-11T18:04:51Z" },
  {
    prompt :=
      "How many times faster than a cheetah does light travel?"
    answer := 9671000.0
    figures := [
      {
        text := "31 m/s"
        name := "top speed of a cheetah"
        thing := "Cheetah"
        measurement := "speed"
        specifier := "top speed" },
      {
        text := "3e8 m/s"
        name := "speed of light"
        thing := "Light"
        measurement := "speed" }]
    quality := 1.0
    measurement := "speed"
    style := "ratio"
    generated := "2024-02-11T18:04:51Z" },
  {
    prompt :=
      "How many giraffes standing on each other's heads would it take to reach the summit of Mount Everest?"
    answer := 1609.0
    figures := [
      {
        text := "5.5 m"
        name := "height of a giraffe"
        thing := "Giraffe"
        measurement := "length"
        specifier := "height" },
      {
        text := "8849 m"
        name := "height of Mount Everest"
        thing := "Mount Everest"
        measurement := "length"
        specifier := "height" }]
    quality := 1.0
    measurement := "length"
    style := "ratio"
    generated := "2024-02-11T18:04:51Z" },
  {
    prompt :=
      "How many hydrogen atoms could fit inside a coffee mug?"
    answer := 5.6449999999999994e26
    figures := [
      {
        text := "6.2e-31 m^3"
        name := "volume of a hydrogen atom"
        thing := "Hydrogen atom"
        measurement := "volume" },
      {
        text := "3.5e-4 m^3"
        name := "volume of a coffee mug"
        thing := "Coffee mug"
        measurement := "volume" }]
    quality := 1.0
    measurement := "volume"
    style := "ratio"
    generated := "2024-02-11T18:04:51Z" },
  {
    prompt :=
      "How many grains of sand would it take to fill a bathtub?"
    answer := 4615000000.0
    figures := [
      {
        text := "6.5e-11 m^3"
        name := "volume of a grain of sand"
        thing := "Grain of sand"
        measurement := "volume" },
      {
        text := "0.3 m^3"
        name := "volume of a bathtub"
        thing := "Bathtub"
        measurement := "volume" }]
    quality := 1.0
    measurement := "volume"
    style := "ratio"
    generated := "2024-02-11T18:04:51Z" },
  {
    prompt :=
      "How many marathons would you have to run to reach the Moon?"
    answer := 9110.0
    figures := [
      {
        text := "42.195 km"
        name := "length of a marathon"
        thing := "Marathon"
        measurement := "length" },
      {
        text := "384400 km"
        name := "distance to the Moon"
        thing := "Moon"
        measurement := "length"
        specifier := "distance from Earth" }]
    quality := 0.9
    measurement := "length"
    style := "ratio"
    generated := "2024-02-11T18:04:51Z" },
  {
    prompt :=
      "How many bathtubs of water would it take to fill an Olympic swimming pool?"
    answer := 8333.0
    figures := [
      {
        text := "0.3 m^3"
        name := "volume of a bathtub"
        thing := "Bathtub"
        measurement := "volume" },
      {
        text := "2500 m^3"
        name := "volume of an Olympic swimming pool"
        thing := "Olympic swimming pool"
        measurement := "volume" }]
    quality := 1.0
    measurement := "volume"
    style := "ratio"
    generated := "2024-02-11T18:04:51Z" },
  {
    prompt :=
      "How many ants are there for every person on Earth?"
    answer := 2500000.0
    figures := [
      {
        text := "8e9"
        name := "number of people on Earth"
        thing := "Human"
        measurement := "count"
        specifier := "population" },
      {
        text := "2e16"
        name := "number of ants on Earth"
        thing := "Ant"
        measurement := "count"
        specifier := "population" }]
    quality := 0.8
    measurement := "count"
    style := "ratio"
    generated := "2024-02-11T18:04:51Z" },
  {
    prompt :=
      "How many Moons would it take to balance the mass of the Earth?"
    answer := 81.34
    figures := [
      {
        text := "7.34e22 kg"
        name := "mass of the Moon"
        thing := "Moon"
        measurement := "mass" },
      {
        text := "5.97e24 kg"
        name := "mass of the Earth"
        thing := "Earth"
        measurement := "mass" }]
    quality := 1.0
    measurement := "mass"
    style := "ratio"
    generated := "2024-02-11T18:04:51Z" },
  {
    prompt :=
      "The Sun weighs as much as how many Earths?"
    answer := 333100.0
    figures := [
      {
        text := "5.97e24 kg"
        name := "mass of the Earth"
        thing := "Earth"
        measurement := "mass" },
      {
        text := "1.99e30 kg"
        name := "mass of the Sun"
        thing := "Sun"
        measurement := "mass" }]
    quality := 1.0
    measurement := "mass"
    style := "ratio"
    generated := "2024-02-11T18:04:51Z" },
  {
    prompt :=
      "How many ants lined up end to end would span a football pitch?"
    answer := 21000.0
    figures := [
      {
        text := "0.005 m"
        name := "length of an ant"
        thing := "Ant"
        measurement := "length" },
      {
        text := "105 m"
        name := "length of a football pitch"
        thing := "Football pitch"
        measurement := "length" }]
    quality := 1.0
    measurement := "length"
    style := "ratio"
    generated := "2024-02-11T18:04:51Z" },
  {
    prompt :=
      "An empty Boeing 747 weighs as much as how many cars?"
    answer := 141.2
    figures := [
      {
        text := "1300 kg"
        name := "mass of a car"
        thing := "Car"
        measurement := "mass" },
      {
        text := "183500 kg"
        name := "empty mass of a Boeing 747"
        thing := "Boeing 747"
        measurement := "mass"
        specifier := "empty" }]
    quality := 1.0
    measurement := "mass"
    style := "ratio"
    generated := "2024-02-11T18:04:51Z" },
  {
    prompt :=
      "The Great Pyramid of Giza weighs as much as how many elephants?"
    answer := 983300.0
    figures := [
      {
        text := "6000 kg"
        name := "mass of an African elephant"
        thing := "African elephant"
        measurement := "mass" },
      {
        text := "5.9e9 kg"
        name := "mass of the Great Pyramid of Giza"
        thing := "Great Pyramid of Giza"
        measurement := "mass" }]
    quality := 1.0
    measurement := "mass"
    style := "ratio"
    generated := "2024-02-11T18:04:51Z" },
  {
    prompt :=
      "How many human hairs laid side by side would span the diameter of the Earth?"
    answer := 182000000000.0
    figures := [
      {
        text := "7e-5 m"
        name := "width of a human hair"
        thing := "Human hair"
        measurement := "length"
        specifier := "width" },
      {
        text := "1.27e7 m"
        name := "diameter of the Earth"
        thing := "Earth"
        measurement := "length"
        specifier := "diameter" }]
    quality := 1.0
    measurement := "length"
    style := "ratio"
    generated := "2024-02-11T18:04:51Z" },
  {
    prompt :=
      "How many Empire State Buildings tall is the Burj Khalifa?"
    answer := 1.869
    figures := [
      {
        text := "443 m"
        name := "height of the Empire State Building"
        thing := "Empire State Building"
        measurement := "length"
        specifier := "height" },
      {
        text := "828 m"
        name := "height of the Burj Khalifa"
        thing := "Burj Khalifa"
        measurement := "length"
        specifier := "height" }]
    quality := 1.0
    measurement := "length"
    style := "ratio"
    generated := "2024-02-11T18:04:51Z" },
  {
    prompt :=
      "How many E. coli bacteria lined up would match the length of a grain of rice?"
    answer := 3000.0
    figures := [
      {
        text := "2e-6 m"
        name := "length of an E. coli bacterium"
        thing := "E. coli"
        measurement := "length" },
      {
        text := "0.006 m"
        name := "length of a grain of rice"
        thing := "Grain of rice"
        measurement := "length" }]
    quality := 1.0
    measurement := "length"
    style := "ratio"
    generated := "2024-02-11T18:04:51Z" },
  {
    prompt :=
      "How many Olympic swimming pools could you fill with the water in Lake Superior?"
    answer := 4800000000.0
    figures := [
      {
        text := "2500 m^3"
        name := "volume of an Olympic swimming pool"
        thing := "Olympic swimming pool"
        measurement := "volume" },
      {
        text := "1.2e13 m^3"
        name := "volume of Lake Superior"
        thing := "Lake Superior"
        measurement := "volume" }]
    quality := 1.0
    measurement := "volume"
    style := "ratio"
    generated := "2024-02-11T18:04:51Z" },
  {
    prompt :=
      "A person weighs as much as how many mosquitoes?"
    answer := 28000000.0
    figures := [
      {
        text := "2.5e-6 kg"
        name := "mass of a mosquito"
        thing := "Mosquito"
        measurement := "mass" },
      {
        text := "70 kg"
        name := "mass of an adult human"
        thing := "Human"
        measurement := "mass" }]
    quality := 1.0
    measurement := "mass"
    style := "ratio"
    generated := "2024-02-11T18:04:51Z" }
]

def Dataset.bundled : Except GameError Dataset := Dataset.ofQuestions bundledQuestions

end FermiQuiz
